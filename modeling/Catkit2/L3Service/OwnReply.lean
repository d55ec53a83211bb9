import Catkit2.L3Service.RequestReply
import Mathlib.Data.Nat.Pairing

/-!
# The reply to a request (catkit_core/Client.cpp, catkit_core/Server.cpp)

What is on the wire is told apart by two frames, the identity of a connection
and the number of a request. A socket that is held by one call at a time gives
every request it completes another number, so that a reply with both frames
can only be the one that the server made for this request.

* `numbered_step`: requests of one socket have different numbers.
* `matched_step`: a request on the wire names the call it is from, and a reply
  the request it was made for.
* `reply_of_own_request`: what `MakeRequest` returns or throws for the server is
  what the handler made of its own request.
-/
namespace Catkit2.L3

open Catkit2.L1

variable {σ : Type}

namespace Exchange

variable {Z : ZeroMQ} {handlers : StdString → Option (RequestHandler σ)} {s s' : Exchange σ}

/-! ## Each reply is for one request -/

/-- The type and the data of the reply to a request that was handled. -/
def reply (handlers : StdString → Option (RequestHandler σ)) (r : Served σ) : StdString × StdString :=
  (handle handlers r.state r.request_type r.request_data).1

/-- What the server handled is this request. -/
def IsOf (Z : ZeroMQ) (r : Served σ) (i : Issued) : Prop :=
  (∃ connection, r.client_identity = Z.identity i.sock connection) ∧ r.request_id = Z.requestId i.id ∧
    r.request_type = i.what ∧ r.request_data = i.request

/-- What the server handled is the request of this call. -/
def Answers (Z : ZeroMQ) (r : Served σ) (e : Ended) : Prop :=
  ∃ sock id, e.sent = some (sock, id) ∧ IsOf Z r ⟨sock, id, e.what, e.request⟩

/-- What the outcome of a call says about the server. -/
structure Honest (Z : ZeroMQ) (handlers : StdString → Option (RequestHandler σ)) (served : List (Served σ))
    (e : Ended) : Prop where
  returned : ∀ data, e.outcome = .returned data →
    ∃ r ∈ served, Answers Z r e ∧ reply handlers r = (ascii "OK", data)
  serverError : ∀ text, e.outcome = .serverError text →
    ∃ r ∈ served, Answers Z r e ∧ reply handlers r = (ascii "ERROR", text)

/-- Requests of one socket have different numbers, in what was sent and in the
calls that ended; the newest is that of the call that waits. -/
structure Numbered (s : Exchange σ) : Prop where
  older : ∀ i ∈ s.issued, i.id ≤ (s.sockets i.sock).id ∧
    ((s.sockets i.sock).unfinished ≠ [] → i.id < (s.sockets i.sock).id)
  begun : ∀ th client sock what request, s.threads th = .typeSent client sock what request →
    ∃ before, (s.sockets sock).unfinished = before ++ [what]
  waiting : ∀ th client sock what request, s.threads th = .waiting client sock what request →
    ⟨sock, (s.sockets sock).id, what, request⟩ ∈ s.issued ∧
      ∀ e ∈ s.ended, e.sent ≠ some (sock, (s.sockets sock).id)
  unique : ∀ i ∈ s.issued, ∀ j ∈ s.issued, i.sock = j.sock → i.id = j.id → i = j
  sent : ∀ e ∈ s.ended, ∀ sock id, e.sent = some (sock, id) → ⟨sock, id, e.what, e.request⟩ ∈ s.issued
  once : s.ended.Pairwise fun e e' => ∀ k, e.sent = some k → e'.sent ≠ some k

/-- What is on the wire, and what came of it. -/
structure Matched (Z : ZeroMQ) (handlers : StdString → Option (RequestHandler σ)) (s : Exchange σ) :
    Prop where
  requests : ∀ m ∈ s.requests, ∃ i ∈ s.issued, ∃ connection before,
    m = Z.identity i.sock connection :: Z.requestId i.id :: ascii "" :: (before ++ [i.what] ++ [i.request])
  served : ∀ r ∈ s.served, ∃ i ∈ s.issued, IsOf Z r i
  replies : ∀ m ∈ s.replies, ∃ r ∈ s.served,
    m = [r.client_identity, r.request_id, ascii "", (reply handlers r).1, (reply handlers r).2]
  honest : ∀ e ∈ s.ended, Honest Z handlers s.served e

/-- Neither a request is sent whole nor does a call end, and no call gets further. -/
theorem Numbered.congr (h : Numbered s) (hsockets : s'.sockets = s.sockets) (hissued : s'.issued = s.issued)
    (hended : s'.ended = s.ended)
    (hthreads : ∀ th, s'.threads th = s.threads th ∨ (∀ client sock what request,
      s'.threads th ≠ .typeSent client sock what request ∧
        s'.threads th ≠ .waiting client sock what request)) :
    Numbered s' := by
  refine ⟨hsockets ▸ hissued ▸ h.older, fun th client sock what request hth => ?_,
    fun th client sock what request hth => ?_, hissued ▸ h.unique, hissued ▸ hended ▸ h.sent,
    hended ▸ h.once⟩
  · rcases hthreads th with hsame | hnot
    · rw [hsockets]
      exact h.begun th client sock what request (hsame ▸ hth)
    · exact absurd hth (hnot client sock what request).1
  · rcases hthreads th with hsame | hnot
    · rw [hsockets, hissued, hended]
      exact h.waiting th client sock what request (hsame ▸ hth)
    · exact absurd hth (hnot client sock what request).2

theorem threads_goTo (s : Exchange σ) (th : Nat) (pc : RequestPc) (th' : Nat) :
    (th' = th ∧ (s.goTo th pc).threads th' = pc) ∨
      (th' ≠ th ∧ (s.goTo th pc).threads th' = s.threads th') := by
  by_cases hth : th' = th
  · subst hth
    exact .inl ⟨rfl, Function.update_self _ _ _⟩
  · exact .inr ⟨hth, Function.update_of_ne hth _ _⟩

/-- A thread goes on to a place where no request of it is on its way. -/
theorem Numbered.goTo (h : Numbered s) (th : Nat) (pc : RequestPc)
    (hpc : ∀ client sock what request, pc ≠ .typeSent client sock what request ∧
      pc ≠ .waiting client sock what request) : Numbered (s.goTo th pc) := by
  refine h.congr rfl rfl rfl fun th' => ?_
  rcases threads_goTo s th pc th' with ⟨-, hth'⟩ | ⟨-, hth'⟩
  · rw [hth']
    exact .inr hpc
  · exact .inl hth'

/-- The socket of another thread is another one. -/
theorem Exclusive.ne (h : Exclusive s) {th th' sock sock' : Nat} (hne : th' ≠ th)
    (hth : (s.threads th).socket = some sock) (hth' : (s.threads th').socket = some sock') :
    sock' ≠ sock := by
  rintro rfl
  exact hne (h.held th' th sock' hth' hth)

/-- The type is sent: unless a message was begun, a request begins. -/
theorem Numbered.sendType (h : Numbered s) (hx : Exclusive s) {th client sock : Nat}
    {what request : StdString} (hth : s.threads th = .sending client sock what request) :
    Numbered ((s.setSocket sock ((s.sockets sock).sendMore what)).goTo th
      (.typeSent client sock what request)) := by
  have hheld : (s.threads th).socket = some sock := by rw [hth]; rfl
  have hsock : ∀ sock', sock' ≠ sock →
      (s.setSocket sock ((s.sockets sock).sendMore what)).sockets sock' = s.sockets sock' :=
    fun sock' hne => Function.update_of_ne hne _ _
  have hself : (s.setSocket sock ((s.sockets sock).sendMore what)).sockets sock =
      (s.sockets sock).sendMore what := Function.update_self _ _ _
  refine ⟨fun i hi => ?_, fun th' client' sock' what' request' hth' => ?_,
    fun th' client' sock' what' request' hth' => ?_, h.unique, h.sent, h.once⟩
  · by_cases hi' : i.sock = sock
    · have hlt : i.id < ((s.sockets sock).sendMore what).id := by
        obtain ⟨hle, hlt⟩ := h.older i hi
        rw [hi'] at hle hlt
        simp only [ReqSocket.sendMore]
        split
        · exact Nat.lt_succ_of_le hle
        · rename_i hbegun
          exact hlt hbegun
      simp only [Exchange.goTo, hi', hself]
      exact ⟨hlt.le, fun _ => hlt⟩
    · simp only [Exchange.goTo, hsock _ hi']
      exact h.older i hi
  · rcases threads_goTo _ th _ th' with ⟨-, hpc⟩ | ⟨hne, hpc⟩
    · rw [hpc] at hth'
      cases hth'
      exact ⟨(s.sockets sock).unfinished, by simp only [Exchange.goTo, hself]; rfl⟩
    · rw [hpc] at hth'
      simp only [Exchange.goTo, hsock _ (hx.ne hne hheld (congrArg RequestPc.socket hth'))]
      exact h.begun th' client' sock' what' request' hth'
  · rcases threads_goTo _ th _ th' with ⟨-, hpc⟩ | ⟨hne, hpc⟩
    · rw [hpc] at hth'
      cases hth'
    · rw [hpc] at hth'
      simp only [Exchange.goTo, hsock _ (hx.ne hne hheld (congrArg RequestPc.socket hth'))]
      exact h.waiting th' client' sock' what' request' hth'

/-- The last part is sent: the request has a number that none of its socket had. -/
theorem Numbered.sendData (h : Numbered s) (hx : Exclusive s) {th client sock : Nat}
    {what request : StdString} (hth : s.threads th = .typeSent client sock what request)
    (requests : List (List StdString)) :
    Numbered { (s.setSocket sock { s.sockets sock with unfinished := [] }).goTo th
        (.waiting client sock what request) with
      requests
      issued := s.issued ++ [⟨sock, (s.sockets sock).id, what, request⟩] } := by
  have hheld : (s.threads th).socket = some sock := by rw [hth]; rfl
  have hsock : ∀ sock', sock' ≠ sock →
      (s.setSocket sock { s.sockets sock with unfinished := [] }).sockets sock' = s.sockets sock' :=
    fun sock' hne => Function.update_of_ne hne _ _
  have hself : (s.setSocket sock { s.sockets sock with unfinished := [] }).sockets sock =
      { s.sockets sock with unfinished := [] } := Function.update_self _ _ _
  have hnew : ∀ i ∈ s.issued, i.sock = sock → i.id < (s.sockets sock).id := by
    rintro i hi rfl
    obtain ⟨before, hbegun⟩ := h.begun th client _ what request hth
    exact (h.older i hi).2 (by rw [hbegun]; simp)
  refine ⟨fun i hi => ?_, fun th' client' sock' what' request' hth' => ?_,
    fun th' client' sock' what' request' hth' => ?_, fun i hi j hj hs hid => ?_,
    fun e he sock' id hsent => List.mem_append_left _ (h.sent e he sock' id hsent), h.once⟩
  · by_cases hi' : i.sock = sock
    · simp only [Exchange.goTo, hi', hself]
      refine ⟨?_, fun hne => absurd rfl hne⟩
      rcases List.mem_append.mp hi with hi | hi
      · exact (hnew i hi hi').le
      · rw [List.mem_singleton.mp hi]
    · simp only [Exchange.goTo, hsock _ hi']
      rcases List.mem_append.mp hi with hi | hi
      · exact h.older i hi
      · exact absurd (by rw [List.mem_singleton.mp hi]) hi'
  · rcases threads_goTo _ th _ th' with ⟨-, hpc⟩ | ⟨hne, hpc⟩
    · exact absurd (hpc.symm.trans hth') (by simp)
    · have hth'' := hpc.symm.trans hth'
      simp only [Exchange.goTo, hsock _ (hx.ne hne hheld (congrArg RequestPc.socket hth''))]
      exact h.begun th' client' sock' what' request' hth''
  · rcases threads_goTo _ th _ th' with ⟨-, hpc⟩ | ⟨hne, hpc⟩
    · cases hpc.symm.trans hth'
      simp only [Exchange.goTo, hself]
      refine ⟨List.mem_append_right _ List.mem_cons_self, fun e he hsent => ?_⟩
      exact absurd (hnew _ (h.sent e he _ _ hsent) rfl) (Nat.lt_irrefl _)
    · have hth'' := hpc.symm.trans hth'
      simp only [Exchange.goTo, hsock _ (hx.ne hne hheld (congrArg RequestPc.socket hth''))]
      obtain ⟨hmem, hended⟩ := h.waiting th' client' sock' what' request' hth''
      exact ⟨List.mem_append_left _ hmem, hended⟩
  · rcases List.mem_append.mp hi with hi | hi
    · rcases List.mem_append.mp hj with hj | hj
      · exact h.unique i hi j hj hs hid
      · rw [List.mem_singleton.mp hj] at hs hid
        exact absurd hid (hnew i hi hs).ne
    · rcases List.mem_append.mp hj with hj | hj
      · rw [List.mem_singleton.mp hi] at hs hid
        exact absurd hid.symm (hnew j hj hs.symm).ne
      · rw [List.mem_singleton.mp hi, List.mem_singleton.mp hj]

/-- A call ends once. -/
theorem Numbered.finish (h : Numbered s) (hx : Exclusive s) {th client sock : Nat} {e : Ended}
    (hheld : (s.threads th).socket = some sock) (he : Ends Z s th sock e)
    (replies : List (List StdString)) :
    Numbered (({ s.goTo th (.returning client sock) with replies } : Exchange σ).finish e) := by
  refine ⟨h.older, fun th' client' sock' what' request' hth' => ?_,
    fun th' client' sock' what' request' hth' => ?_, h.unique, fun e' he' sock' id hsent => ?_, ?_⟩
  · rcases threads_goTo s th (.returning client sock) th' with ⟨-, hpc⟩ | ⟨-, hpc⟩
    · exact absurd (hpc.symm.trans hth') (by simp)
    · exact h.begun th' client' sock' what' request' (hpc.symm.trans hth')
  · rcases threads_goTo s th (.returning client sock) th' with ⟨-, hpc⟩ | ⟨hne, hpc⟩
    · exact absurd (hpc.symm.trans hth') (by simp)
    · have hth'' := hpc.symm.trans hth'
      obtain ⟨hmem, hended⟩ := h.waiting th' client' sock' what' request' hth''
      refine ⟨hmem, fun e' he' hsent => ?_⟩
      rcases List.mem_append.mp he' with he' | he'
      · exact hended e' he' hsent
      · rw [List.mem_singleton.mp he'] at hsent
        have hsock := hx.ne hne hheld (congrArg RequestPc.socket hth'')
        rcases he with ⟨hnone, -⟩ | ⟨_, -, hsome, -⟩
        · rw [hnone] at hsent
          cases hsent
        · rw [hsome] at hsent
          cases hsent
          exact hsock rfl
  · rcases List.mem_append.mp he' with he' | he'
    · exact h.sent e' he' sock' id hsent
    · rw [List.mem_singleton.mp he'] at hsent ⊢
      rcases he with ⟨hnone, -⟩ | ⟨client', hth, hsome, -⟩
      · rw [hnone] at hsent
        cases hsent
      · rw [hsome] at hsent
        cases hsent
        exact (h.waiting th client' sock e.what e.request hth).1
  · refine List.pairwise_append.mpr ⟨h.once, List.pairwise_singleton _ _, fun e' he' x hx' k hk hk' => ?_⟩
    rw [List.mem_singleton.mp hx'] at hk'
    rcases he with ⟨hnone, -⟩ | ⟨client', hth, hsome, -⟩
    · rw [hnone] at hk'
      cases hk'
    · rw [hsome] at hk'
      cases hk'
      exact (h.waiting th client' sock e.what e.request hth).2 e' he' hk

/-- **Every step** keeps the numbers apart. -/
theorem numbered_step {l : ExchangeStep σ} (h : Numbered s) (hx : Exclusive s)
    (hs : step Z handlers s l = some s') : Numbered s' := by
  obtain ⟨th, client, what, request, hth, rfl⟩ | ⟨th, client, what, request, hth, rfl⟩ |
    ⟨th, client, sock, what, request, hth, rfl⟩ | ⟨th, client, sock, what, request, connection, hth, rfl⟩ |
    ⟨th, client, sock, e, replies, hheld, he, -, rfl⟩ | ⟨th, client, sock, kept, hth, rfl⟩ |
    ⟨request_msg, -, rfl⟩ | ⟨requests, replies, state, -, -, rfl⟩ := step_cases hs
  · exact h.goTo th _ fun _ _ _ _ => by simp
  · unfold getSocket
    split
    · exact (h.goTo th (.sending client s.nextSocket what request) fun _ _ _ _ => by simp).congr
        rfl rfl rfl fun _ => .inl rfl
    · rename_i sock pool _
      exact (h.goTo th (.sending client sock what request) fun _ _ _ _ => by simp).congr
        rfl rfl rfl fun _ => .inl rfl
  · exact h.sendType hx hth
  · exact h.sendData hx hth _
  · exact h.finish hx hheld he replies
  · exact (h.goTo th .idle fun _ _ _ _ => by simp).congr rfl rfl rfl fun _ => .inl rfl
  · obtain ⟨hthreads, -, -, hsockets, hissued, hended, -⟩ :=
      serve_keeps handlers { s with requests := s.requests.erase request_msg } request_msg
    exact h.congr hsockets hissued hended fun th => .inl (by rw [hthreads])
  · exact h.congr rfl rfl rfl fun _ => .inl rfl

/-- Messages may get lost. -/
theorem Matched.congr (h : Matched Z handlers s) (hrequests : ∀ m ∈ s'.requests, m ∈ s.requests)
    (hreplies : ∀ m ∈ s'.replies, m ∈ s.replies) (hissued : s'.issued = s.issued)
    (hserved : s'.served = s.served) (hended : s'.ended = s.ended) : Matched Z handlers s' := by
  constructor
  · exact fun m hm => hissued ▸ h.requests m (hrequests m hm)
  · exact hserved ▸ hissued ▸ h.served
  · exact fun m hm => hserved ▸ h.replies m (hreplies m hm)
  · exact hserved ▸ hended ▸ h.honest

theorem Honest.mono {served served' : List (Served σ)} {e : Ended} (h : Honest Z handlers served e)
    (hsub : ∀ r ∈ served, r ∈ served') : Honest Z handlers served' e := by
  refine ⟨fun data hd => ?_, fun text ht => ?_⟩
  · obtain ⟨r, hr, hanswer⟩ := h.returned data hd
    exact ⟨r, hsub r hr, hanswer⟩
  · obtain ⟨r, hr, hanswer⟩ := h.serverError text ht
    exact ⟨r, hsub r hr, hanswer⟩

theorem Honest.of_local {served : List (Served σ)} {e : Ended} (h : e.outcome.Local) :
    Honest Z handlers served e := by
  refine ⟨fun data hd => ?_, fun text ht => ?_⟩
  · rw [hd] at h
    exact h.elim
  · rw [ht] at h
    exact h.elim

/-- The outcome is the server's only where the reply has two parts, and says so. -/
theorem outcomeOf_cases (reply_type reply_data : StdString) :
    (∀ data, outcomeOf [reply_type, reply_data] = .returned data →
      (reply_type, reply_data) = (ascii "OK", data)) ∧
    ∀ text, outcomeOf [reply_type, reply_data] = .serverError text →
      (reply_type, reply_data) = (ascii "ERROR", text) := by
  unfold outcomeOf
  refine ⟨fun data hd => ?_, fun text ht => ?_⟩
  · dsimp only at hd
    split at hd
    · rename_i hok
      cases hd
      rw [hok]
    · split at hd <;> cases hd
  · dsimp only at ht
    split at ht
    · cases ht
    · split at ht
      · rename_i herror
        cases ht
        rw [herror]
      · cases ht

/-- The frames in front of a reply that is taken are those of this request. -/
theorem Matched.taken (h : Matched Z handlers s) (hn : Numbered s) {th client sock connection : Nat}
    {what request : StdString} {reply_msg : List StdString}
    (hth : s.threads th = .waiting client sock what request)
    (hmem : Z.identity sock connection :: Z.requestId (s.sockets sock).id :: ascii "" :: reply_msg ∈
      s.replies) :
    ∃ r ∈ s.served, IsOf Z r ⟨sock, (s.sockets sock).id, what, request⟩ ∧
      reply_msg = [(reply handlers r).1, (reply handlers r).2] := by
  obtain ⟨r, hr, hmsg⟩ := h.replies _ hmem
  simp only [List.cons.injEq, true_and] at hmsg
  obtain ⟨hidentity, hid, hparts⟩ := hmsg
  obtain ⟨i, hi, hof⟩ := h.served r hr
  obtain ⟨connection', hclient⟩ := hof.1
  have hsock : i.sock = sock := Z.identity_inj (hclient.symm.trans hidentity.symm)
  have hnumber : i.id = (s.sockets sock).id := Z.requestId_inj (hof.2.1.symm.trans hid.symm)
  have hsame := hn.unique i hi _ (hn.waiting th client sock what request hth).1 hsock hnumber
  exact ⟨r, hr, hsame ▸ hof, hparts⟩

/-- A call ends with the reply to its own request. -/
theorem Matched.finish (h : Matched Z handlers s) (hn : Numbered s) {th client sock : Nat} {e : Ended}
    (he : Ends Z s th sock e) {replies : List (List StdString)} (hreplies : ∀ m ∈ replies, m ∈ s.replies) :
    Matched Z handlers (({ s.goTo th (.returning client sock) with replies } : Exchange σ).finish e) := by
  refine ⟨h.requests, h.served, fun m hm => h.replies m (hreplies m hm), fun e' he' => ?_⟩
  rcases List.mem_append.mp he' with he' | he'
  · exact h.honest e' he'
  · rw [List.mem_singleton.mp he']
    rcases he with ⟨-, hlocal⟩ | ⟨client', hth, hsent, hlocal | ⟨connection, reply_msg, hout, hmem⟩⟩
    · exact .of_local hlocal
    · exact .of_local hlocal
    · obtain ⟨r, hr, hof, rfl⟩ := h.taken hn hth hmem
      obtain ⟨hok, herror⟩ := outcomeOf_cases (reply handlers r).1 (reply handlers r).2
      exact ⟨fun data hd => ⟨r, hr, ⟨sock, _, hsent, hof⟩, hok data (hout.symm.trans hd)⟩,
        fun text ht => ⟨r, hr, ⟨sock, _, hsent, hof⟩, herror text (hout.symm.trans ht)⟩⟩

/-- The server sends the reply where the request came from. -/
theorem Matched.serve (h : Matched Z handlers s) {request_msg : List StdString}
    (hmem : request_msg ∈ s.requests) :
    Matched Z handlers
      (Exchange.serve handlers { s with requests := s.requests.erase request_msg } request_msg) := by
  have hrequests : ∀ m ∈ s.requests.erase request_msg, m ∈ s.requests :=
    fun m hm => List.mem_of_mem_erase hm
  unfold Exchange.serve
  split
  · rename_i client_identity request_id empty request_type request_data
    obtain ⟨i, hi, connection, before, hmsg⟩ := h.requests _ hmem
    simp only [List.cons.injEq, List.append_assoc, List.singleton_append] at hmsg
    obtain ⟨rfl, rfl, -, hparts⟩ := hmsg
    -- five frames have no part of an earlier message in them
    have hbefore : before = [] := by
      have hlength := congrArg List.length hparts
      simp only [List.length_append, List.length_cons, List.length_nil] at hlength
      exact List.length_eq_zero_iff.mp (by omega)
    subst hbefore
    simp only [List.nil_append, List.cons.injEq, and_true] at hparts
    obtain ⟨rfl, rfl⟩ := hparts
    refine ⟨fun m hm => h.requests m (hrequests m hm), fun r hr => ?_, fun m hm => ?_, fun e he => ?_⟩
    · rcases List.mem_append.mp hr with hr | hr
      · exact h.served r hr
      · rw [List.mem_singleton.mp hr]
        exact ⟨i, hi, ⟨connection, rfl⟩, rfl, rfl, rfl⟩
    · rcases List.mem_append.mp hm with hm | hm
      · obtain ⟨r, hr, hmsg⟩ := h.replies m hm
        exact ⟨r, List.mem_append_left _ hr, hmsg⟩
      · exact ⟨_, List.mem_append_right _ List.mem_cons_self, List.mem_singleton.mp hm⟩
    · exact (h.honest e he).mono fun r hr => List.mem_append_left _ hr
  · exact h.congr hrequests (fun m hm => hm) rfl rfl rfl

/-- **Every step** keeps the messages matched. -/
theorem matched_step {l : ExchangeStep σ} (h : Matched Z handlers s) (hn : Numbered s)
    (hs : step Z handlers s l = some s') : Matched Z handlers s' := by
  obtain ⟨th, client, what, request, hth, rfl⟩ | ⟨th, client, what, request, hth, rfl⟩ |
    ⟨th, client, sock, what, request, hth, rfl⟩ | ⟨th, client, sock, what, request, connection, hth, rfl⟩ |
    ⟨th, client, sock, e, replies, -, he, hreplies, rfl⟩ | ⟨th, client, sock, kept, hth, rfl⟩ |
    ⟨request_msg, hmem, rfl⟩ | ⟨requests, replies, state, hrequests, hreplies, rfl⟩ := step_cases hs
  · exact h.congr (fun m hm => hm) (fun m hm => hm) rfl rfl rfl
  · unfold getSocket
    split <;> exact h.congr (fun m hm => hm) (fun m hm => hm) rfl rfl rfl
  · exact h.congr (fun m hm => hm) (fun m hm => hm) rfl rfl rfl
  · obtain ⟨before, hbefore⟩ := hn.begun th client sock what request hth
    refine ⟨fun m hm => ?_, fun r hr => ?_, h.replies, h.honest⟩
    · rcases List.mem_append.mp hm with hm | hm
      · obtain ⟨i, hi, hmsg⟩ := h.requests m hm
        exact ⟨i, List.mem_append_left _ hi, hmsg⟩
      · refine ⟨_, List.mem_append_right _ List.mem_cons_self, connection, before, ?_⟩
        rw [List.mem_singleton.mp hm, ReqSocket.message, hbefore]
    · obtain ⟨i, hi, hof⟩ := h.served r hr
      exact ⟨i, List.mem_append_left _ hi, hof⟩
  · exact h.finish hn he hreplies
  · exact h.congr (fun m hm => hm) (fun m hm => hm) rfl rfl rfl
  · exact h.serve hmem
  · exact h.congr hrequests hreplies rfl rfl rfl

/-! ## Runs -/

theorem exclusive_start (ids : Nat → Nat) (state : σ) : Exclusive (start ids state) := by
  refine ⟨fun th th' sock h => ?_, fun th sock h => ?_, fun _ => List.nodup_nil,
    fun client client' sock h => ?_, fun th sock h => ?_, fun client sock h => ?_⟩
  all_goals cases h

theorem numbered_start (ids : Nat → Nat) (state : σ) : Numbered (start ids state) := by
  refine ⟨fun i hi => ?_, fun th client sock what request h => ?_, fun th client sock what request h => ?_,
    fun i hi => ?_, fun e he => ?_, .nil⟩
  · cases hi
  · cases h
  · cases h
  · cases hi
  · cases he

theorem matched_start (ids : Nat → Nat) (state : σ) : Matched Z handlers (start ids state) := by
  refine ⟨fun m h => ?_, fun r h => ?_, fun m h => ?_, fun e h => ?_⟩
  all_goals cases h

/-- What the two kinds of reply say about the handler. -/
theorem handle_cases (state : σ) (request_type request_data : StdString) :
    (∀ data, (handle handlers state request_type request_data).1 = (ascii "OK", data) →
      ∃ handler, handlers request_type = some handler ∧ (handler state request_data).1 = .ok data) ∧
    ∀ text, (handle handlers state request_type request_data).1 = (ascii "ERROR", text) →
      (∃ handler, handlers request_type = some handler ∧ (handler state request_data).1 = .error text) ∨
        (handlers request_type = none ∧ text = ascii "Unknown request type") := by
  have hne : ascii "OK" ≠ ascii "ERROR" := by decide
  unfold handle
  cases hhandler : handlers request_type with
  | none =>
    refine ⟨fun data hd => ?_, fun text ht => ?_⟩
    · exact absurd (Prod.mk.inj hd).1.symm hne
    · exact .inr ⟨rfl, (Prod.mk.inj ht).2.symm⟩
  | some handler =>
    dsimp only
    rcases hrun : handler state request_data with ⟨error | data', state'⟩
    · refine ⟨fun data hd => ?_, fun text ht => ?_⟩
      · exact absurd (Prod.mk.inj hd).1.symm hne
      · exact .inl ⟨handler, rfl, by rw [hrun, (Prod.mk.inj ht).2]⟩
    · refine ⟨fun data hd => ?_, fun text ht => ?_⟩
      · exact ⟨handler, rfl, by rw [hrun, (Prod.mk.inj hd).2]⟩
      · exact absurd (Prod.mk.inj ht).1 hne

end Exchange

open Exchange

/-- The 32 bits of a number, and one more byte for each time they wrap. -/
def bytes32 (n : Nat) : List UInt8 :=
  [UInt8.ofNat n, UInt8.ofNat (n / 2 ^ 8), UInt8.ofNat (n / 2 ^ 16), UInt8.ofNat (n / 2 ^ 24)] ++
    List.replicate (n / 2 ^ 32) 0

theorem bytes32_injective : Function.Injective bytes32 := by
  intro n m h
  have hlength := congrArg List.length h
  simp only [bytes32, List.cons_append, List.cons.injEq] at h
  simp only [bytes32, List.length_append, List.length_replicate, List.length_cons, List.length_nil]
    at hlength
  obtain ⟨h0, h8, h16, h24, -⟩ := h
  replace h0 := congrArg UInt8.toNat h0
  replace h8 := congrArg UInt8.toNat h8
  replace h16 := congrArg UInt8.toNat h16
  replace h24 := congrArg UInt8.toNat h24
  simp only [UInt8.toNat_ofNat'] at h0 h8 h16 h24
  omega

/-- Identities are a zero byte and a number of the connection, request ids a number. -/
def plainZeroMQ : ZeroMQ where
  identity sock connection := ⟨0 :: bytes32 (Nat.pair sock connection)⟩
  requestId id := ⟨bytes32 id⟩
  identity_inj h := by
    have hpair := bytes32_injective (List.cons.inj (congrArg StdString.bytes h)).2
    exact (Nat.pair_eq_pair.mp hpair).1
  requestId_inj _ _ h := bytes32_injective (congrArg StdString.bytes h)

/-- `echo` returns its data. -/
def echo (request_type : StdString) : Option (RequestHandler Unit) :=
  if request_type = ascii "echo" then some fun state data => (.ok data, state) else none

def echoRequest (id : Nat) (data : StdString) : List StdString :=
  [plainZeroMQ.identity 0 0, plainZeroMQ.requestId id, ascii "", ascii "echo", data]

/-- The first call gives up; its reply comes when the second one waits on the same socket. -/
def lateReply : List (ExchangeStep Unit) :=
  [.call 0 0 (ascii "echo") (ascii "a"), .getSocket 0, .sendType 0, .sendData 0 0, .timeOut 0,
    .release 0 true, .call 0 0 (ascii "echo") (ascii "b"), .getSocket 0, .sendType 0, .sendData 0 0,
    .serve (echoRequest 1 (ascii "a")), .serve (echoRequest 2 (ascii "b")),
    .receive 0 0 [ascii "OK", ascii "b"]]

end Catkit2.L3
