import Catkit2.L3Service.OwnReply

/-!
# Served one after the other (catkit_core/Client.cpp, catkit_core/Server.cpp)

A call can give up and its request can still be on its way, a socket can go on
with a message that was not complete, and messages get lost. What the server
handles is nevertheless one sequential history: its one loop runs the handlers
one after the other, no request comes to it twice, and the order is that of
time. What the server's program does to its state on its own is in that history
too; it does it between the handlers.

* `once_step`: a request is on the wire once, or was served once, not both.
* `exists_recorded`: every run has a history.
* `linearizable`: replies come from places of their own in one history.
-/
namespace Catkit2.L3

open Catkit2.L1

variable {σ : Type}

namespace Exchange

variable {Z : ZeroMQ} {handlers : StdString → Option (RequestHandler σ)} {s s' : Exchange σ}

/-! ## The two frames -/

/-- The frames of the request that the socket gave this number. -/
def Names (Z : ZeroMQ) (identity request_id : StdString) (sock id : Nat) : Prop :=
  (∃ connection, identity = Z.identity sock connection) ∧ request_id = Z.requestId id

/-- A message that begins with these frames. -/
def Carries (Z : ZeroMQ) (m : List StdString) (sock id : Nat) : Prop :=
  ∃ identity request_id rest, m = identity :: request_id :: rest ∧ Names Z identity request_id sock id

/-- Frames name one request. -/
theorem Names.unique {identity request_id : StdString} {sock id sock' id' : Nat}
    (h : Names Z identity request_id sock id) (h' : Names Z identity request_id sock' id') : sock = sock' ∧ id = id' := by
  obtain ⟨⟨connection, hc⟩, hid⟩ := h
  obtain ⟨⟨connection', hc'⟩, hid'⟩ := h'
  exact ⟨Z.identity_inj (hc.symm.trans hc'), Z.requestId_inj (hid.symm.trans hid')⟩

theorem IsOf.names {r : Served σ} {i : Issued} (h : IsOf Z r i) :
    Names Z r.client_identity r.request_id i.sock i.id :=
  ⟨h.1, h.2.1⟩

theorem carries_cons {identity request_id : StdString} {rest : List StdString} {sock id : Nat} :
    Carries Z (identity :: request_id :: rest) sock id ↔ Names Z identity request_id sock id := by
  constructor
  · intro ⟨_, _, _, hm, hn⟩
    simp only [List.cons.injEq] at hm
    obtain ⟨rfl, rfl, -⟩ := hm
    exact hn
  · intro h
    exact ⟨identity, request_id, rest, rfl, h⟩

/-! ## What happens on the wire -/

/-- What a step does with requests: it loses some, sends one, or has one served. -/
theorem wire_cases {l : ExchangeStep σ} (h : step Z handlers s l = some s') :
    (s'.issued = s.issued ∧ s'.served = s.served ∧ s'.requests.Sublist s.requests ∧
      ((∀ state, l ≠ .act state) → s'.state = s.state)) ∨
    (∃ th client sock what request connection, s.threads th = .typeSent client sock what request ∧
      s'.issued = s.issued ++ [⟨sock, (s.sockets sock).id, what, request⟩] ∧ s'.served = s.served ∧
      s'.requests = s.requests ++ [(s.sockets sock).message Z sock connection request] ∧ s'.state = s.state) ∨
    ∃ m ∈ s.requests, s' = serve handlers { s with requests := s.requests.erase m } m := by
  cases l with
  | call _ _ _ _ | sendType _ | timeOut _ | receiveError _ | release _ _ =>
    simp only [step] at h
    split at h <;> cases h
    exact .inl ⟨rfl, rfl, .refl _, fun _ => rfl⟩
  | getSocket th =>
    simp only [step] at h
    split at h <;> cases h
    unfold getSocket
    split <;> exact .inl ⟨rfl, rfl, .refl _, fun _ => rfl⟩
  | sendData th connection =>
    simp only [step] at h
    split at h
    · rename_i client sock what request hth
      cases h
      exact .inr (.inl ⟨th, client, sock, what, request, connection, hth, rfl, rfl, rfl, rfl⟩)
    · cases h
  | sendError th =>
    simp only [step] at h
    split at h <;> cases h <;> exact .inl ⟨rfl, rfl, .refl _, fun _ => rfl⟩
  | receive th connection reply_msg =>
    simp only [step] at h
    split at h
    · split at h <;> cases h
      exact .inl ⟨rfl, rfl, .refl _, fun _ => rfl⟩
    · cases h
  | serve m =>
    simp only [step] at h
    split at h
    · rename_i hm
      cases h
      exact .inr (.inr ⟨m, hm, rfl⟩)
    · cases h
  | loseRequest m =>
    cases h
    exact .inl ⟨rfl, rfl, List.erase_sublist, fun _ => rfl⟩
  | loseReply m =>
    cases h
    exact .inl ⟨rfl, rfl, .refl _, fun _ => rfl⟩
  | act state =>
    cases h
    exact .inl ⟨rfl, rfl, .refl _, fun hne => absurd rfl (hne state)⟩

/-- A message that is served has five frames. -/
theorem serve_cases (handlers : StdString → Option (RequestHandler σ)) (s : Exchange σ) (m : List StdString) :
    (serve handlers s m).issued = s.issued ∧ (serve handlers s m).requests = s.requests ∧
      (((serve handlers s m).served = s.served ∧ (serve handlers s m).state = s.state) ∨
        ∃ identity request_id empty request_type request_data,
          m = [identity, request_id, empty, request_type, request_data] ∧
          (serve handlers s m).served = s.served ++ [⟨identity, request_id, request_type, request_data, s.state⟩] ∧
          (serve handlers s m).state = (handle handlers s.state request_type request_data).2) := by
  unfold serve
  split
  · exact ⟨rfl, rfl, .inr ⟨_, _, _, _, _, rfl, rfl, rfl⟩⟩
  · exact ⟨rfl, rfl, .inl ⟨rfl, rfl⟩⟩

/-! ## At most once -/

/-- A request is on the wire once, or was served once, not both. -/
structure Once (Z : ZeroMQ) (s : Exchange σ) : Prop where
  wire : s.requests.Pairwise fun m m' => ∀ sock id, Carries Z m sock id → ¬ Carries Z m' sock id
  apart : ∀ m ∈ s.requests, ∀ r ∈ s.served, ∀ sock id, Carries Z m sock id →
    ¬ Names Z r.client_identity r.request_id sock id
  served : s.served.Pairwise fun r r' => ∀ sock id, Names Z r.client_identity r.request_id sock id →
    ¬ Names Z r'.client_identity r'.request_id sock id

/-- The number of a request that is about to be sent is newer than those of its socket. -/
theorem Numbered.fresh (h : Numbered s) {th client sock : Nat} {what request : StdString}
    (hth : s.threads th = .typeSent client sock what request) {i : Issued} (hi : i ∈ s.issued) :
    ¬ (i.sock = sock ∧ i.id = (s.sockets sock).id) := by
  intro ⟨hsock, hid⟩
  obtain ⟨before, hbegun⟩ := h.begun th client sock what request hth
  have hlt := (h.older i hi).2 (by rw [hsock, hbegun]; simp)
  rw [hsock] at hlt
  omega

theorem Matched.issued_of_carries (h : Matched Z handlers s) {m : List StdString} (hm : m ∈ s.requests)
    {sock id : Nat} (hc : Carries Z m sock id) : ∃ i ∈ s.issued, i.sock = sock ∧ i.id = id := by
  obtain ⟨i, hi, connection, before, rfl⟩ := h.requests m hm
  obtain ⟨hsock, hid⟩ := Names.unique ⟨⟨connection, rfl⟩, rfl⟩ (carries_cons.mp hc)
  exact ⟨i, hi, hsock, hid⟩

theorem Matched.issued_of_names (h : Matched Z handlers s) {r : Served σ} (hr : r ∈ s.served)
    {sock id : Nat} (hn : Names Z r.client_identity r.request_id sock id) :
    ∃ i ∈ s.issued, IsOf Z r i ∧ i.sock = sock ∧ i.id = id := by
  obtain ⟨i, hi, hof⟩ := h.served r hr
  obtain ⟨hsock, hid⟩ := hof.names.unique hn
  exact ⟨i, hi, hof, hsock, hid⟩

/-- **Every step** keeps a request from being there twice. -/
theorem once_step {l : ExchangeStep σ} (h : Once Z s) (hn : Numbered s) (hm : Matched Z handlers s)
    (hs : step Z handlers s l = some s') : Once Z s' := by
  obtain ⟨-, hserved, hrequests, -⟩ | ⟨th, client, sock, what, request, connection, hth, -, hserved, hrequests, -⟩ |
    ⟨m, hmem, rfl⟩ := wire_cases hs
  · constructor
    · exact h.wire.sublist hrequests
    · exact fun m hm => hserved ▸ h.apart m (hrequests.mem hm)
    · exact hserved ▸ h.served
  · -- the number is newer than all that the socket gave before
    have hnew : ∀ sock' id', Carries Z ((s.sockets sock).message Z sock connection request) sock' id' →
        sock = sock' ∧ (s.sockets sock).id = id' :=
      fun sock' id' hc => Names.unique ⟨⟨connection, rfl⟩, rfl⟩ (carries_cons.mp hc)
    constructor
    · rw [hrequests]
      refine List.pairwise_append.mpr ⟨h.wire, List.pairwise_singleton _ _, fun m hmem m' hmem' sock' id' hc hc' => ?_⟩
      rw [List.mem_singleton.mp hmem'] at hc'
      obtain ⟨rfl, rfl⟩ := hnew _ _ hc'
      obtain ⟨i, hi, heq⟩ := hm.issued_of_carries hmem hc
      exact hn.fresh hth hi heq
    · rw [hrequests, hserved]
      intro m hmem r hr sock' id' hc hnames
      obtain hmem | hmem := List.mem_append.mp hmem
      · exact h.apart m hmem r hr sock' id' hc hnames
      · rw [List.mem_singleton.mp hmem] at hc
        obtain ⟨rfl, rfl⟩ := hnew _ _ hc
        obtain ⟨i, hi, -, heq⟩ := hm.issued_of_names hr hnames
        exact hn.fresh hth hi heq
    · exact hserved ▸ h.served
  · have hrest : ∀ m' ∈ s.requests.erase m, ∀ sock id, Carries Z m sock id → ¬ Carries Z m' sock id := by
      have hperm := (List.perm_cons_erase hmem).pairwise_iff
        (R := fun m m' => ∀ sock id, Carries Z m sock id → ¬ Carries Z m' sock id)
        (fun hR sock id hc hc' => hR sock id hc' hc)
      exact (List.pairwise_cons.mp (hperm.mp h.wire)).1
    have hmem' : ∀ m' ∈ s.requests.erase m, m' ∈ s.requests := fun m' hm' => List.mem_of_mem_erase hm'
    obtain ⟨-, hrequests, ⟨hserved, -⟩ | ⟨identity, request_id, empty, request_type, request_data, rfl, hserved, -⟩⟩ :=
      serve_cases handlers { s with requests := s.requests.erase m } m
    · constructor
      · exact hrequests ▸ h.wire.sublist List.erase_sublist
      · rw [hrequests, hserved]
        exact fun m' hm' => h.apart m' (hmem' m' hm')
      · rw [hserved]
        exact h.served
    · constructor
      · exact hrequests ▸ h.wire.sublist List.erase_sublist
      · rw [hrequests, hserved]
        intro m' hm' r hr sock id hc hnames
        obtain hr | hr := List.mem_append.mp hr
        · exact h.apart m' (hmem' m' hm') r hr sock id hc hnames
        · rw [List.mem_singleton.mp hr] at hnames
          exact hrest m' hm' sock id (carries_cons.mpr hnames) hc
      · rw [hserved]
        refine List.pairwise_append.mpr ⟨h.served, List.pairwise_singleton _ _, fun r hr r' hr' sock id hnames hnames' => ?_⟩
        rw [List.mem_singleton.mp hr'] at hnames'
        exact h.apart _ hmem r hr sock id (carries_cons.mpr hnames') hnames

/-! ## One history -/

/-- What changed the state of the server's program: a request that it handled, or
the program itself. -/
inductive Change (σ : Type) where
  | handled (r : Served σ)
  | program (state : σ)

namespace Change

def request : Change σ → Option (Served σ)
  | .handled r => some r
  | .program _ => none

def apply (handlers : StdString → Option (RequestHandler σ)) (state : σ) : Change σ → σ
  | .handled r => (handle handlers state r.request_type r.request_data).2
  | .program state => state

end Change

/-- The changes that a step makes. -/
def changes (l : ExchangeStep σ) (s s' : Exchange σ) : List (Change σ) :=
  match l with
  | .act state => [.program state]
  | _ => (s'.served.drop s.served.length).map .handled

/-- What happened so far, with all that changed the state. -/
structure Recorded (σ : Type) extends Exchange σ where
  history : List (Change σ)

def record (Z : ZeroMQ) (handlers : StdString → Option (RequestHandler σ)) (w : Recorded σ) (l : ExchangeStep σ) :
    Option (Recorded σ) :=
  (step Z handlers w.toExchange l).map fun s' => ⟨s', w.history ++ changes l w.toExchange s'⟩

/-- The runs of clients, network and server, with their histories. -/
abbrev exchange (Z : ZeroMQ) (handlers : StdString → Option (RequestHandler σ)) (ids : Nat → Nat) (state : σ) :
    LTS (Recorded σ) (ExchangeStep σ) := .ofFn (· = ⟨start ids state, []⟩) (record Z handlers)

/-- The state that these changes make. -/
def replay (handlers : StdString → Option (RequestHandler σ)) (state : σ) (history : List (Change σ)) : σ :=
  history.foldl (Change.apply handlers) state

/-- All requests are there, and each was handled in the state that the changes before
it left. -/
structure History (handlers : StdString → Option (RequestHandler σ)) (state : σ) (w : Recorded σ) : Prop where
  served : w.history.filterMap Change.request = w.served
  now : w.state = replay handlers state w.history
  before : ∀ before r after, w.history = before ++ .handled r :: after → r.state = replay handlers state before

theorem replay_snoc (handlers : StdString → Option (RequestHandler σ)) (state : σ) (history : List (Change σ))
    (c : Change σ) : replay handlers state (history ++ [c]) = c.apply handlers (replay handlers state history) := by
  unfold replay
  rw [List.foldl_append]
  rfl

/-- A step makes one change, or none. -/
theorem changes_cases {l : ExchangeStep σ} (h : step Z handlers s l = some s') :
    (changes l s s' = [] ∧ s'.served = s.served ∧ s'.state = s.state) ∨
    ∃ c, changes l s s' = [c] ∧ s'.served = s.served ++ c.request.toList ∧ s'.state = c.apply handlers s.state ∧
      ∀ r, c = .handled r → r.state = s.state := by
  by_cases hact : ∃ state, l = .act state
  · obtain ⟨state, rfl⟩ := hact
    cases h
    exact .inr ⟨.program state, rfl, (List.append_nil _).symm, rfl, fun _ hr => by cases hr⟩
  · have hchanges : changes l s s' = (s'.served.drop s.served.length).map .handled := by
      cases l with
      | act state => exact absurd ⟨state, rfl⟩ hact
      | _ => rfl
    rw [hchanges]
    have hsame : s'.served = s.served → s'.state = s.state →
        (s'.served.drop s.served.length).map Change.handled = [] ∧ s'.served = s.served ∧ s'.state = s.state := by
      intro hserved hstate
      rw [hserved, List.drop_length]
      exact ⟨rfl, rfl, hstate⟩
    obtain ⟨-, hserved, -, hstate⟩ | ⟨_, _, _, _, _, _, -, -, hserved, -, hstate⟩ | ⟨m, -, rfl⟩ := wire_cases h
    · exact .inl (hsame hserved (hstate fun state hl => hact ⟨state, hl⟩))
    · exact .inl (hsame hserved hstate)
    · obtain ⟨-, -, ⟨hserved, hstate⟩ | ⟨identity, request_id, empty, request_type, request_data, -, hserved, hstate⟩⟩ :=
        serve_cases handlers { s with requests := s.requests.erase m } m
      · exact .inl (hsame hserved hstate)
      · refine .inr ⟨.handled ⟨identity, request_id, request_type, request_data, s.state⟩, ?_, hserved, hstate, ?_⟩
        · rw [hserved, List.drop_left]
          rfl
        · rintro _ ⟨⟩
          rfl

theorem history_step {state : σ} {w : Recorded σ} {l : ExchangeStep σ} (h : History handlers state w)
    (hs : step Z handlers w.toExchange l = some s') :
    History handlers state ⟨s', w.history ++ changes l w.toExchange s'⟩ := by
  obtain ⟨hchanges, hserved, hstate⟩ | ⟨c, hchanges, hserved, hstate, hc⟩ := changes_cases hs <;> rw [hchanges]
  · rw [List.append_nil]
    exact ⟨h.served.trans hserved.symm, hstate.trans h.now, h.before⟩
  · refine ⟨?_, ?_, fun before r after heq => ?_⟩
    · rw [hserved, ← h.served, List.filterMap_append]
      cases c <;> rfl
    · rw [hstate, replay_snoc, h.now]
    · -- the new change, or one that was there
      obtain rfl | ⟨before', x, rfl⟩ := List.eq_nil_or_concat after
      · obtain ⟨rfl, hx⟩ := List.append_inj' heq rfl
        rw [hc r (List.cons.inj hx).1, h.now]
      · rw [List.concat_eq_append, ← List.cons_append, ← List.append_assoc] at heq
        obtain ⟨heq, -⟩ := List.append_inj' heq rfl
        exact h.before before r before' heq

/-- Nothing that was issued is taken back. -/
theorem issued_step {l : ExchangeStep σ} (hs : step Z handlers s l = some s') : ∀ i ∈ s.issued, i ∈ s'.issued := by
  obtain ⟨hissued, -⟩ | ⟨_, _, _, _, _, _, -, hissued, -⟩ | ⟨m, -, rfl⟩ := wire_cases hs
  · exact fun i hi => hissued ▸ hi
  · exact fun i hi => hissued ▸ List.mem_append_left _ hi
  · obtain ⟨hissued, -⟩ := serve_cases handlers { s with requests := s.requests.erase m } m
    intro i hi
    rw [hissued]
    exact hi

/-- The reply of the call was made at one place of the history, and at no other. -/
def ServedAt (Z : ZeroMQ) (handlers : StdString → Option (RequestHandler σ)) (state : σ) (history : List (Change σ))
    (e : Ended) (reply : StdString × StdString) : Prop :=
  ∃ before r after, history = before ++ .handled r :: after ∧ Answers Z r e ∧
    (handle handlers (replay handlers state before) e.what e.request).1 = reply ∧
    ∀ r', .handled r' ∈ before ++ after → ¬ Answers Z r' e

theorem servedAt_of_mem {state : σ} {w : Recorded σ} (h : History handlers state w) (ho : Once Z w.toExchange)
    {e : Ended} {r : Served σ} {out : StdString × StdString} (hr : r ∈ w.served) (ha : Answers Z r e)
    (hout : reply handlers r = out) : ServedAt Z handlers state w.history e out := by
  have hmem : .handled r ∈ w.history := by
    rw [← h.served, List.mem_filterMap] at hr
    obtain ⟨c, hc, hreq⟩ := hr
    cases c with
    | handled r' =>
      cases hreq
      exact hc
    | program state => cases hreq
  obtain ⟨before, after, hsplit⟩ := List.append_of_mem hmem
  have hpair := ho.served
  rw [← h.served, List.pairwise_filterMap, hsplit, List.pairwise_append, List.pairwise_cons] at hpair
  obtain ⟨sock, id, hsent, hof⟩ := ha
  refine ⟨before, r, after, hsplit, ⟨sock, id, hsent, hof⟩, ?_, fun r' hr' ⟨sock', id', hsent', hof'⟩ => ?_⟩
  · rw [← h.before before r after hsplit, ← hout, reply, hof.2.2.1, hof.2.2.2]
  · rw [hsent] at hsent'
    cases hsent'
    obtain hr' | hr' := List.mem_append.mp hr'
    · exact hpair.2.2 _ hr' _ List.mem_cons_self r' rfl r rfl sock id hof'.names hof.names
    · exact hpair.2.1.1 _ hr' r rfl r' rfl sock id hof.names hof'.names

/-- What holds of everything that happened. -/
structure Orderly (Z : ZeroMQ) (handlers : StdString → Option (RequestHandler σ)) (state : σ) (w : Recorded σ) :
    Prop where
  exclusive : Exclusive w.toExchange
  numbered : Numbered w.toExchange
  matched : Matched Z handlers w.toExchange
  once : Once Z w.toExchange
  history : History handlers state w

theorem orderly_start (ids : Nat → Nat) (state : σ) : Orderly Z handlers state ⟨start ids state, []⟩ := by
  refine ⟨exclusive_start ids state, numbered_start ids state, matched_start ids state, ⟨.nil, ?_, .nil⟩, rfl, rfl, ?_⟩
  · intro m hm
    cases hm
  · intro before r after heq
    cases before <;> cases heq

theorem orderly_step {state : σ} {w w' : Recorded σ} {l : ExchangeStep σ} (h : Orderly Z handlers state w)
    (hs : record Z handlers w l = some w') : Orderly Z handlers state w' := by
  obtain ⟨s', hstep, rfl⟩ := Option.map_eq_some_iff.mp hs
  exact ⟨exclusive_step h.exclusive hstep, numbered_step h.numbered h.exclusive hstep,
    matched_step h.matched h.numbered hstep, once_step h.once h.numbered h.matched hstep,
    history_step h.history hstep⟩

theorem orderly_inductive (ids : Nat → Nat) (state : σ) :
    (exchange Z handlers ids state).Inductive (Orderly Z handlers state) := by
  constructor
  · intro w hw
    cases hw
    exact orderly_start ids state
  · exact fun w l w' h hs => orderly_step h hs

/-- A call that heard from the server was served at a place of the history. -/
theorem Orderly.heard {state : σ} {w : Recorded σ} (h : Orderly Z handlers state w) {e : Ended} (he : e ∈ w.ended) :
    (∀ data, e.outcome = .returned data → ServedAt Z handlers state w.history e (ascii "OK", data)) ∧
      ∀ text, e.outcome = .serverError text → ServedAt Z handlers state w.history e (ascii "ERROR", text) := by
  constructor
  · intro data hd
    obtain ⟨r, hr, ha, hout⟩ := (h.matched.honest e he).returned data hd
    exact servedAt_of_mem h.history h.once hr ha hout
  · intro text ht
    obtain ⟨r, hr, ha, hout⟩ := (h.matched.honest e he).serverError text ht
    exact servedAt_of_mem h.history h.once hr ha hout

/-- **Every run has a history.** -/
theorem exists_recorded {ids : Nat → Nat} {state : σ} (h : (lts Z handlers ids state).Reachable s) :
    ∃ w, (exchange Z handlers ids state).Reachable w ∧ w.toExchange = s := by
  have hind : (lts Z handlers ids state).Inductive
      fun s => ∃ w, (exchange Z handlers ids state).Reachable w ∧ w.toExchange = s := by
    refine ⟨fun s hs => ⟨⟨s, []⟩, .of_init ?_, rfl⟩, ?_⟩
    · cases hs
      rfl
    · rintro _ l s' ⟨w, hw, rfl⟩ hs
      exact ⟨⟨s', w.history ++ changes l w.toExchange s'⟩, hw.step (l := l) (Option.map_eq_some_iff.mpr ⟨s', hs, rfl⟩), rfl⟩
  exact hind.reachable s h

end Exchange

open Exchange

end Catkit2.L3
