import Catkit2.Core.LTS
import Catkit2.L1Encoding.Tensor
import Mathlib.Logic.Function.Basic

/-!
# Requests and replies (catkit_core/Client.cpp, catkit_core/Server.cpp)

Any number of threads call `MakeRequest` on any number of clients of one
server. A client keeps a pool of REQ sockets; the server has one ROUTER socket
and one loop, which puts the routing frames back in front of every reply by
hand. Messages are lists of frames; they can be late and they can be lost, and
every call of ZeroMQ can fail.

Of ZeroMQ the frames are modelled that a socket adds and takes off again. A
socket that failed in the middle of a message goes on with that message, and a
reply that is not to the newest request of its socket is dropped.

* `step_cases`: what a step does, by kinds.
* `exclusive_step`: a socket is in one place, a pool or a call of `MakeRequest`.
-/
namespace Catkit2.L3

open Catkit2.L1

/-! ## ZeroMQ -/

/-- The frames that ZeroMQ adds. A ROUTER socket gives each connection of a
socket an identity; a correlated REQ socket numbers its requests. -/
structure ZeroMQ where
  identity : Nat → Nat → StdString
  requestId : Nat → StdString
  identity_inj : ∀ {a m b n}, identity a m = identity b n → a = b
  requestId_inj : Function.Injective requestId

/-- A REQ socket: the number of its newest request, and what it was given so far
of a message that is not complete. -/
structure ReqSocket where
  id : Nat
  unfinished : List StdString

namespace ReqSocket

/-- A part that is not the last one. The first part of a message begins a request. -/
def sendMore (socket : ReqSocket) (part : StdString) : ReqSocket where
  id := if socket.unfinished = [] then socket.id + 1 else socket.id
  unfinished := socket.unfinished ++ [part]

/-- The frames of the message that the last part completes. -/
def message (Z : ZeroMQ) (sock connection : Nat) (socket : ReqSocket) (part : StdString) : List StdString :=
  Z.identity sock connection :: Z.requestId socket.id :: ascii "" :: (socket.unfinished ++ [part])

end ReqSocket

/-! ## The client -/

/-- How a call of `MakeRequest` ends. -/
inductive Outcome where
  | returned (data : StdString)
  /-- It throws the text that the server sent. -/
  | serverError (text : StdString)
  /-- It throws a text of its own. -/
  | runtimeError (text : StdString)
  | zmqError

/-- Not the server's words. -/
def Outcome.Local : Outcome → Prop
  | .returned _ | .serverError _ => False
  | .runtimeError _ | .zmqError => True

/-- What `MakeRequest` makes of the reply.
mirrors catkit_core/Client.cpp:52-73 -/
def outcomeOf (reply_msg : List StdString) : Outcome :=
  match reply_msg with
  | [reply_type, reply_data] =>
    if reply_type = ascii "OK" then .returned reply_data
    else if reply_type = ascii "ERROR" then .serverError reply_data
    else .runtimeError (ascii "The server responded in a wrong format.")
  | _ => .runtimeError (ascii "The server responded in a wrong format.")

/-- Where a thread is in `MakeRequest`.
mirrors catkit_core/Client.cpp:28-80 -/
inductive RequestPc where
  | idle
  | called (client : Nat) (what request : StdString)
  | sending (client sock : Nat) (what request : StdString)
  | typeSent (client sock : Nat) (what request : StdString)
  | waiting (client sock : Nat) (what request : StdString)
  /-- The deleter of the socket is left to run. -/
  | returning (client sock : Nat)

/-- The socket that the call holds. -/
def RequestPc.socket : RequestPc → Option Nat
  | .idle | .called .. => none
  | .sending _ sock _ _ | .typeSent _ sock _ _ | .waiting _ sock _ _ | .returning _ sock => some sock

/-! ## The server -/

/-- A handler reads and changes the state of the server's program; an error is
the text of what it throws. -/
abbrev RequestHandler (σ : Type) := σ → StdString → Except StdString StdString × σ

variable {σ : Type}

/-- The type and the data of the reply.
mirrors catkit_core/Server.cpp:100-125 -/
def handle (handlers : StdString → Option (RequestHandler σ)) (state : σ)
    (request_type request_data : StdString) : (StdString × StdString) × σ :=
  match handlers request_type with
  | none => ((ascii "ERROR", ascii "Unknown request type"), state)
  | some handler =>
    match handler state request_data with
    | (.ok reply_data, state) => ((ascii "OK", reply_data), state)
    | (.error text, state) => ((ascii "ERROR", text), state)

/-! ## All of them -/

/-- A request that was sent whole. -/
structure Issued where
  sock : Nat
  id : Nat
  what : StdString
  request : StdString

/-- A request that the server handled, and the state it was in. -/
structure Served (σ : Type) where
  client_identity : StdString
  request_id : StdString
  request_type : StdString
  request_data : StdString
  state : σ

/-- A call of `MakeRequest` that ended; `sent` is the request, if it was sent whole. -/
structure Ended where
  what : StdString
  request : StdString
  sent : Option (Nat × Nat)
  outcome : Outcome

/-- `requests` and `replies` are on their way. `issued`, `served` and `ended`
record what happened. -/
structure Exchange (σ : Type) where
  pools : Nat → List Nat
  sockets : Nat → ReqSocket
  nextSocket : Nat
  threads : Nat → RequestPc
  requests : List (List StdString)
  replies : List (List StdString)
  state : σ
  issued : List Issued
  served : List (Served σ)
  ended : List Ended

inductive ExchangeStep (σ : Type) where
  | call (th client : Nat) (what request : StdString)
  | getSocket (th : Nat)
  | sendType (th : Nat)
  | sendData (th connection : Nat)
  | sendError (th : Nat)
  | receive (th connection : Nat) (reply_msg : List StdString)
  | timeOut (th : Nat)
  | receiveError (th : Nat)
  /-- The deleter pushes outside the mutex; a socket can get lost there. (It can also
  leave a null pointer in the pool, on which a later call crashes; that is left out.) -/
  | release (th : Nat) (kept : Bool)
  | serve (request_msg : List StdString)
  | loseRequest (request_msg : List StdString)
  | loseReply (reply_msg : List StdString)
  /-- Whatever else the server's program does. -/
  | act (state : σ)

namespace Exchange

/-- `ids` are the numbers from which the sockets will count. -/
def start (ids : Nat → Nat) (state : σ) : Exchange σ :=
  ⟨fun _ => [], fun sock => ⟨ids sock, []⟩, 0, fun _ => .idle, [], [], state, [], [], []⟩

def goTo (s : Exchange σ) (th : Nat) (pc : RequestPc) : Exchange σ :=
  { s with threads := Function.update s.threads th pc }

def setSocket (s : Exchange σ) (sock : Nat) (socket : ReqSocket) : Exchange σ :=
  { s with sockets := Function.update s.sockets sock socket }

def finish (s : Exchange σ) (e : Ended) : Exchange σ := { s with ended := s.ended ++ [e] }

/-- A new socket, or the one on top of the client's pool. What `sockets` has for
a socket that is not made yet is how it will begin.
mirrors catkit_core/Client.cpp:92-120 -/
def getSocket (s : Exchange σ) (th client : Nat) (what request : StdString) : Exchange σ :=
  match s.pools client with
  | [] =>
    { s.goTo th (.sending client s.nextSocket what request) with nextSocket := s.nextSocket + 1 }
  | sock :: pool =>
    { s.goTo th (.sending client sock what request) with pools := Function.update s.pools client pool }

/-- One pass of the server's loop.
mirrors catkit_core/Server.cpp:73-139 -/
def serve (handlers : StdString → Option (RequestHandler σ)) (s : Exchange σ)
    (request_msg : List StdString) : Exchange σ :=
  match request_msg with
  | [client_identity, request_id, _, request_type, request_data] =>
    let ((reply_type, reply_data), state) := handle handlers s.state request_type request_data
    { s with
      state
      replies := s.replies ++ [[client_identity, request_id, ascii "", reply_type, reply_data]]
      served := s.served ++ [⟨client_identity, request_id, request_type, request_data, s.state⟩] }
  | _ => s

def step (Z : ZeroMQ) (handlers : StdString → Option (RequestHandler σ)) (s : Exchange σ) :
    ExchangeStep σ → Option (Exchange σ)
  | .call th client what request =>
    match s.threads th with
    | .idle => some (s.goTo th (.called client what request))
    | _ => none
  | .getSocket th =>
    match s.threads th with
    | .called client what request => some (s.getSocket th client what request)
    | _ => none
  | .sendType th =>
    match s.threads th with
    | .sending client sock what request =>
      some ((s.setSocket sock ((s.sockets sock).sendMore what)).goTo th
        (.typeSent client sock what request))
    | _ => none
  | .sendData th connection =>
    match s.threads th with
    | .typeSent client sock what request =>
      let socket := s.sockets sock
      some { (s.setSocket sock { socket with unfinished := [] }).goTo th
          (.waiting client sock what request) with
        requests := s.requests ++ [socket.message Z sock connection request]
        issued := s.issued ++ [⟨sock, socket.id, what, request⟩] }
    | _ => none
  | .sendError th =>
    match s.threads th with
    | .sending client sock what request | .typeSent client sock what request =>
      some ((s.goTo th (.returning client sock)).finish ⟨what, request, none, .zmqError⟩)
    | _ => none
  | .receive th connection reply_msg =>
    match s.threads th with
    | .waiting client sock what request =>
      let id := (s.sockets sock).id
      let msg := Z.identity sock connection :: Z.requestId id :: ascii "" :: reply_msg
      if msg ∈ s.replies then
        some ({ s.goTo th (.returning client sock) with replies := s.replies.erase msg }.finish
          ⟨what, request, some (sock, id), outcomeOf reply_msg⟩)
      else none
    | _ => none
  | .timeOut th =>
    match s.threads th with
    | .waiting client sock what request =>
      some ((s.goTo th (.returning client sock)).finish ⟨what, request, some (sock, (s.sockets sock).id),
        .runtimeError (ascii "The server did not respond in time. Is it running?")⟩)
    | _ => none
  | .receiveError th =>
    match s.threads th with
    | .waiting client sock what request =>
      some ((s.goTo th (.returning client sock)).finish
        ⟨what, request, some (sock, (s.sockets sock).id), .zmqError⟩)
    | _ => none
  | .release th kept =>
    match s.threads th with
    | .returning client sock =>
      some { s.goTo th .idle with
        pools := if kept then Function.update s.pools client (sock :: s.pools client) else s.pools }
    | _ => none
  | .serve request_msg =>
    if request_msg ∈ s.requests then
      some (serve handlers { s with requests := s.requests.erase request_msg } request_msg)
    else none
  | .loseRequest request_msg => some { s with requests := s.requests.erase request_msg }
  | .loseReply reply_msg => some { s with replies := s.replies.erase reply_msg }
  | .act state => some { s with state }

def lts (Z : ZeroMQ) (handlers : StdString → Option (RequestHandler σ)) (ids : Nat → Nat) (state : σ) :
    LTS (Exchange σ) (ExchangeStep σ) := .ofFn (· = start ids state) (step Z handlers)

/-! ## What the steps do -/

variable {Z : ZeroMQ} {handlers : StdString → Option (RequestHandler σ)} {s s' : Exchange σ}

/-- How the call of the thread, which holds the socket, ends. -/
def Ends (Z : ZeroMQ) (s : Exchange σ) (th sock : Nat) (e : Ended) : Prop :=
  (e.sent = none ∧ e.outcome.Local) ∨
  ∃ client, s.threads th = .waiting client sock e.what e.request ∧
    e.sent = some (sock, (s.sockets sock).id) ∧
    (e.outcome.Local ∨ ∃ connection reply_msg, e.outcome = outcomeOf reply_msg ∧
      Z.identity sock connection :: Z.requestId (s.sockets sock).id :: ascii "" :: reply_msg ∈ s.replies)

/-- **What a step does.** -/
theorem step_cases {l : ExchangeStep σ} (h : step Z handlers s l = some s') :
    (∃ th client what request, s.threads th = .idle ∧ s' = s.goTo th (.called client what request)) ∨
    (∃ th client what request, s.threads th = .called client what request ∧
      s' = s.getSocket th client what request) ∨
    (∃ th client sock what request, s.threads th = .sending client sock what request ∧
      s' = (s.setSocket sock ((s.sockets sock).sendMore what)).goTo th
        (.typeSent client sock what request)) ∨
    (∃ th client sock what request connection, s.threads th = .typeSent client sock what request ∧
      s' = { (s.setSocket sock { s.sockets sock with unfinished := [] }).goTo th
          (.waiting client sock what request) with
        requests := s.requests ++ [(s.sockets sock).message Z sock connection request]
        issued := s.issued ++ [⟨sock, (s.sockets sock).id, what, request⟩] }) ∨
    (∃ th client sock e replies, (s.threads th).socket = some sock ∧ Ends Z s th sock e ∧
      (∀ m ∈ replies, m ∈ s.replies) ∧
      s' = ({ s.goTo th (.returning client sock) with replies }).finish e) ∨
    (∃ th client sock, ∃ kept : Bool, s.threads th = .returning client sock ∧ s' = { s.goTo th .idle with
      pools := if kept then Function.update s.pools client (sock :: s.pools client) else s.pools }) ∨
    (∃ request_msg ∈ s.requests,
      s' = serve handlers { s with requests := s.requests.erase request_msg } request_msg) ∨
    ∃ requests replies state, (∀ m ∈ requests, m ∈ s.requests) ∧ (∀ m ∈ replies, m ∈ s.replies) ∧
      s' = { s with requests, replies, state } := by
  cases l with
  | call th client what request =>
    simp only [step] at h
    split at h
    · rename_i hth
      cases h
      exact .inl ⟨th, client, what, request, hth, rfl⟩
    · cases h
  | getSocket th =>
    simp only [step] at h
    split at h
    · rename_i client what request hth
      cases h
      exact .inr (.inl ⟨th, client, what, request, hth, rfl⟩)
    · cases h
  | sendType th =>
    simp only [step] at h
    split at h
    · rename_i client sock what request hth
      cases h
      exact .inr (.inr (.inl ⟨th, client, sock, what, request, hth, rfl⟩))
    · cases h
  | sendData th connection =>
    simp only [step] at h
    split at h
    · rename_i client sock what request hth
      cases h
      exact .inr (.inr (.inr (.inl ⟨th, client, sock, what, request, connection, hth, rfl⟩)))
    · cases h
  | sendError th =>
    simp only [step] at h
    split at h
    · rename_i client sock what request hth
      cases h
      refine .inr (.inr (.inr (.inr (.inl ⟨th, client, sock, _, s.replies, by rw [hth]; rfl, ?_,
        fun m hm => hm, rfl⟩))))
      exact .inl ⟨rfl, trivial⟩
    · rename_i client sock what request hth
      cases h
      refine .inr (.inr (.inr (.inr (.inl ⟨th, client, sock, _, s.replies, by rw [hth]; rfl, ?_,
        fun m hm => hm, rfl⟩))))
      exact .inl ⟨rfl, trivial⟩
    · cases h
  | receive th connection reply_msg =>
    simp only [step] at h
    split at h
    · rename_i client sock what request hth
      split at h
      · rename_i hmem
        cases h
        exact .inr (.inr (.inr (.inr (.inl ⟨th, client, sock, _, _, by rw [hth]; rfl,
          .inr ⟨client, hth, rfl, .inr ⟨connection, reply_msg, rfl, hmem⟩⟩,
          fun m hm => List.mem_of_mem_erase hm, rfl⟩))))
      · cases h
    · cases h
  | timeOut th =>
    simp only [step] at h
    split at h
    · rename_i client sock what request hth
      cases h
      refine .inr (.inr (.inr (.inr (.inl ⟨th, client, sock, _, s.replies, by rw [hth]; rfl, ?_,
        fun m hm => hm, rfl⟩))))
      exact .inr ⟨client, hth, rfl, .inl trivial⟩
    · cases h
  | receiveError th =>
    simp only [step] at h
    split at h
    · rename_i client sock what request hth
      cases h
      refine .inr (.inr (.inr (.inr (.inl ⟨th, client, sock, _, s.replies, by rw [hth]; rfl, ?_,
        fun m hm => hm, rfl⟩))))
      exact .inr ⟨client, hth, rfl, .inl trivial⟩
    · cases h
  | release th kept =>
    simp only [step] at h
    split at h
    · rename_i client sock hth
      cases h
      exact .inr (.inr (.inr (.inr (.inr (.inl ⟨th, client, sock, kept, hth, rfl⟩)))))
    · cases h
  | serve request_msg =>
    simp only [step] at h
    split at h
    · rename_i hmem
      cases h
      exact .inr (.inr (.inr (.inr (.inr (.inr (.inl ⟨request_msg, hmem, rfl⟩))))))
    · cases h
  | loseRequest request_msg =>
    cases h
    exact .inr (.inr (.inr (.inr (.inr (.inr (.inr ⟨_, s.replies, s.state,
      fun m hm => List.mem_of_mem_erase hm, fun m hm => hm, rfl⟩))))))
  | loseReply reply_msg =>
    cases h
    exact .inr (.inr (.inr (.inr (.inr (.inr (.inr ⟨s.requests, _, s.state, fun m hm => hm,
      fun m hm => List.mem_of_mem_erase hm, rfl⟩))))))
  | act state =>
    cases h
    exact .inr (.inr (.inr (.inr (.inr (.inr (.inr ⟨s.requests, s.replies, state, fun m hm => hm,
      fun m hm => hm, rfl⟩))))))

/-! ## Each socket is in one place -/

/-- A socket is held by at most one call, and then in no pool; it is in at most
one pool, once. -/
structure Exclusive (s : Exchange σ) : Prop where
  held : ∀ th th' sock, (s.threads th).socket = some sock → (s.threads th').socket = some sock → th = th'
  notPooled : ∀ th sock, (s.threads th).socket = some sock → ∀ client, sock ∉ s.pools client
  once : ∀ client, (s.pools client).Nodup
  apart : ∀ client client' sock, sock ∈ s.pools client → sock ∈ s.pools client' → client = client'
  made : ∀ th sock, (s.threads th).socket = some sock → sock < s.nextSocket
  madePooled : ∀ client sock, sock ∈ s.pools client → sock < s.nextSocket

/-- The pools are left alone, and no thread holds another socket. -/
theorem Exclusive.congr (h : Exclusive s) (hth : ∀ th, (s'.threads th).socket = (s.threads th).socket)
    (hpools : s'.pools = s.pools) (hnext : s'.nextSocket = s.nextSocket) : Exclusive s' := by
  constructor
  · exact fun th th' sock h1 h2 => h.held th th' sock (hth th ▸ h1) (hth th' ▸ h2)
  · exact fun th sock h1 => hpools ▸ h.notPooled th sock (hth th ▸ h1)
  · exact hpools ▸ h.once
  · exact hpools ▸ h.apart
  · exact fun th sock h1 => hnext ▸ h.made th sock (hth th ▸ h1)
  · exact hpools ▸ hnext ▸ h.madePooled

theorem socket_goTo {th : Nat} {pc : RequestPc} (h : pc.socket = (s.threads th).socket) (th' : Nat) :
    ((s.goTo th pc).threads th').socket = (s.threads th').socket := by
  by_cases hth : th' = th
  · subst hth
    simp only [goTo, Function.update_self, h]
  · simp only [goTo, Function.update_of_ne hth]

/-- A thread that held no socket takes one that was in no place. -/
theorem Exclusive.take (h : Exclusive s) {th sock : Nat} {pc : RequestPc} (hpc : pc.socket = some sock)
    (hfree : ∀ th', (s.threads th').socket ≠ some sock) {pools : Nat → List Nat} {nextSocket : Nat}
    (hpools : ∀ client, (pools client).Sublist (s.pools client)) (hout : ∀ client, sock ∉ pools client)
    (hsock : sock < nextSocket) (hnext : s.nextSocket ≤ nextSocket) :
    Exclusive { s.goTo th pc with pools, nextSocket } := by
  have hcases : ∀ th' x, ((s.goTo th pc).threads th').socket = some x →
      (th' = th ∧ x = sock) ∨ (s.threads th').socket = some x := by
    intro th' x hx
    by_cases hth : th' = th
    · subst hth
      simp only [goTo, Function.update_self, hpc, Option.some.injEq] at hx
      exact .inl ⟨rfl, hx.symm⟩
    · simp only [goTo, Function.update_of_ne hth] at hx
      exact .inr hx
  refine ⟨fun th₁ th₂ x h1 h2 => ?_, fun th' x hx client hmem => ?_, fun client => ?_,
    fun client client' x h1 h2 => ?_, fun th' x hx => ?_, fun client x hx => ?_⟩
  · rcases hcases th₁ x h1 with ⟨rfl, rfl⟩ | hold₁
    · rcases hcases th₂ x h2 with ⟨rfl, -⟩ | hold₂
      · rfl
      · exact absurd hold₂ (hfree th₂)
    · rcases hcases th₂ x h2 with ⟨rfl, rfl⟩ | hold₂
      · exact absurd hold₁ (hfree th₁)
      · exact h.held th₁ th₂ x hold₁ hold₂
  · rcases hcases th' x hx with ⟨-, rfl⟩ | hold
    · exact hout client hmem
    · exact h.notPooled th' x hold client ((hpools client).mem hmem)
  · exact (hpools client).nodup (h.once client)
  · exact h.apart client client' x ((hpools client).mem h1) ((hpools client').mem h2)
  · rcases hcases th' x hx with ⟨-, rfl⟩ | hold
    · exact hsock
    · exact (h.made th' x hold).trans_le hnext
  · exact (h.madePooled client x ((hpools client).mem hx)).trans_le hnext

theorem Exclusive.getSocket (h : Exclusive s) (th client : Nat) (what request : StdString) :
    Exclusive (s.getSocket th client what request) := by
  unfold Exchange.getSocket
  split
  · refine h.take rfl (fun th' hth' => ?_) (fun _ => .refl _) (fun client' hmem => ?_)
      (Nat.lt_succ_self _) (Nat.le_succ _)
    · exact absurd (h.made th' _ hth') (Nat.lt_irrefl _)
    · exact absurd (h.madePooled client' _ hmem) (Nat.lt_irrefl _)
  · rename_i sock pool hpool
    have htop : sock ∈ s.pools client := by rw [hpool]; exact List.mem_cons_self
    have honce := h.once client
    rw [hpool, List.nodup_cons] at honce
    refine h.take rfl (fun th' hth' => h.notPooled th' sock hth' client htop) (fun client' => ?_)
      (fun client' hmem => ?_) (h.madePooled client sock htop) (le_refl _)
    · by_cases hc : client' = client
      · subst hc
        rw [Function.update_self, hpool]
        exact List.sublist_cons_self _ _
      · rw [Function.update_of_ne hc]
    · by_cases hc : client' = client
      · subst hc
        rw [Function.update_self] at hmem
        exact honce.1 hmem
      · rw [Function.update_of_ne hc] at hmem
        exact hc (h.apart client' client sock hmem htop)

/-- The deleter runs: the call lets go of the socket, and the pool gets it. -/
theorem Exclusive.release (h : Exclusive s) {th client sock : Nat}
    (hth : s.threads th = .returning client sock) (kept : Bool) :
    Exclusive { s.goTo th .idle with
      pools := if kept then Function.update s.pools client (sock :: s.pools client) else s.pools } := by
  have hheld : (s.threads th).socket = some sock := by rw [hth]; rfl
  have hother : ∀ th' x, ((s.goTo th .idle).threads th').socket = some x →
      th' ≠ th ∧ (s.threads th').socket = some x := by
    intro th' x hx
    by_cases he : th' = th
    · subst he
      simp only [goTo, Function.update_self] at hx
      cases hx
    · simp only [goTo, Function.update_of_ne he] at hx
      exact ⟨he, hx⟩
  have hpool : ∀ client' x, x ∈ (if kept then Function.update s.pools client (sock :: s.pools client)
      else s.pools) client' → (x = sock ∧ client' = client) ∨ x ∈ s.pools client' := by
    intro client' x hx
    split at hx
    · by_cases hc : client' = client
      · subst hc
        rw [Function.update_self] at hx
        exact (List.mem_cons.mp hx).imp_left fun he => ⟨he, rfl⟩
      · rw [Function.update_of_ne hc] at hx
        exact .inr hx
    · exact .inr hx
  have hnone := h.notPooled th sock hheld
  refine ⟨fun th₁ th₂ x h1 h2 => ?_, fun th' x hx client' hmem => ?_, fun client' => ?_,
    fun client₁ client₂ x h1 h2 => ?_, fun th' x hx => ?_, fun client' x hx => ?_⟩
  · exact h.held th₁ th₂ x (hother th₁ x h1).2 (hother th₂ x h2).2
  · obtain ⟨hne, hold⟩ := hother th' x hx
    rcases hpool client' x hmem with ⟨rfl, -⟩ | hmem'
    · exact hne (h.held th' th x hold hheld)
    · exact h.notPooled th' x hold client' hmem'
  · dsimp only
    split
    · by_cases hc : client' = client
      · subst hc
        rw [Function.update_self]
        exact List.nodup_cons.mpr ⟨hnone client', h.once client'⟩
      · rw [Function.update_of_ne hc]
        exact h.once client'
    · exact h.once client'
  · rcases hpool client₁ x h1 with ⟨rfl, rfl⟩ | hold₁
    · rcases hpool client₂ x h2 with ⟨-, rfl⟩ | hold₂
      · rfl
      · exact absurd hold₂ (hnone client₂)
    · rcases hpool client₂ x h2 with ⟨rfl, rfl⟩ | hold₂
      · exact absurd hold₁ (hnone client₁)
      · exact h.apart client₁ client₂ x hold₁ hold₂
  · exact h.made th' x (hother th' x hx).2
  · rcases hpool client' x hx with ⟨rfl, -⟩ | hold
    · exact h.made th x hheld
    · exact h.madePooled client' x hold

theorem serve_keeps (handlers : StdString → Option (RequestHandler σ)) (s : Exchange σ)
    (request_msg : List StdString) :
    (serve handlers s request_msg).threads = s.threads ∧ (serve handlers s request_msg).pools = s.pools ∧
      (serve handlers s request_msg).nextSocket = s.nextSocket ∧
      (serve handlers s request_msg).sockets = s.sockets ∧
      (serve handlers s request_msg).issued = s.issued ∧ (serve handlers s request_msg).ended = s.ended ∧
      (serve handlers s request_msg).requests = s.requests := by
  unfold serve
  split <;> exact ⟨rfl, rfl, rfl, rfl, rfl, rfl, rfl⟩

/-- **Every step** leaves a socket in one place. -/
theorem exclusive_step {l : ExchangeStep σ} (h : Exclusive s) (hs : step Z handlers s l = some s') :
    Exclusive s' := by
  obtain ⟨th, client, what, request, hth, rfl⟩ | ⟨th, client, what, request, hth, rfl⟩ |
    ⟨th, client, sock, what, request, hth, rfl⟩ | ⟨th, client, sock, what, request, connection, hth, rfl⟩ |
    ⟨th, client, sock, e, replies, hheld, -, -, rfl⟩ | ⟨th, client, sock, kept, hth, rfl⟩ |
    ⟨request_msg, -, rfl⟩ | ⟨requests, replies, state, -, -, rfl⟩ := step_cases hs
  · exact h.congr (socket_goTo (congrArg RequestPc.socket hth).symm) rfl rfl
  · exact h.getSocket th client what request
  · exact h.congr (socket_goTo (congrArg RequestPc.socket hth).symm) rfl rfl
  · exact h.congr (socket_goTo (congrArg RequestPc.socket hth).symm) rfl rfl
  · exact h.congr (socket_goTo hheld.symm) rfl rfl
  · exact h.release hth kept
  · obtain ⟨hthreads, hpools, hnext, -⟩ :=
      serve_keeps handlers { s with requests := s.requests.erase request_msg } request_msg
    exact h.congr (fun th => by rw [hthreads]) hpools hnext
  · exact h.congr (fun _ => rfl) rfl rfl

end Exchange

end Catkit2.L3
