import Catkit2.L4Testbed.ServiceProxy

/-!
# What a client knows of a service that is restarted (catkit_core/ServiceProxy.cpp)

A service may come back with other properties, commands, data streams and
links. `Connect` reads them again when the newest frame of the state stream is
not the one it connected to last, and the state frames have times of their own
(`Published`).

* `connectAt_cases`: what a `Connect` does to the tables.
* `connected_iff`: after it the names and the data streams are those of the run,
  and the links are, exactly when none is left from before that the run does
  not have.
-/
namespace Catkit2.L4

open Catkit2.L1

namespace ServiceProxy

open Script

variable {env : Nat → Moment}

/-! ## The tables -/

/-- What the proxy should know of a service with this interface. -/
def tables (i : Interface) : Tables where
  propertyNames := OrdMap.keys i.properties
  commandNames := i.commands
  dataStreamIds := i.dataStreams
  propertyDataStreamLinks := i.links

/-- What the runs of the service show and answer: state frames have times of
their own, the newest frame is never an older one again, and `get_info` lists
the interface of the run. -/
structure Published (env : Nat → Moment) (interface : Nat → Interface) : Prop where
  nonzero : ∀ k, (env k).frame.timeStamp ≠ 0
  distinct : ∀ j k, (env j).frame.timeStamp = (env k).frame.timeStamp → (env j).frame = (env k).frame
  newest : ∀ j k l, j ≤ k → k ≤ l → (env j).frame = (env l).frame → (env k).frame = (env j).frame
  info : ∀ k reply, (env k).frame.state = .RUNNING → (env k).getInfo = .ok reply →
    SameReply (interface (env k).frame.run).handleGetInfo reply

/-- All but the links are those of the interface, and its links are there. -/
structure Knows (i : Interface) (t : Tables) : Prop where
  propertyNames : t.propertyNames = OrdMap.keys i.properties
  commandNames : t.commandNames = i.commands
  dataStreamIds : t.dataStreamIds = i.dataStreams
  links : ∀ k v, OrdMap.find i.links k = some v → OrdMap.find t.propertyDataStreamLinks k = some v
  sorted : OrdMap.Sorted t.propertyDataStreamLinks

/-- A `Connect` that saw the run with this interface: the links are those it
lists, and those there were before. -/
structure Recorded (i : Interface) (c : Connected) : Prop where
  running : c.frame.state = .RUNNING
  knows : Knows i c.after
  links : ∀ k, OrdMap.find c.after.propertyDataStreamLinks k =
    (OrdMap.find i.links k).or (OrdMap.find c.before.propertyDataStreamLinks k)

theorem sorted_links (i : Interface) : OrdMap.Sorted i.links := by
  unfold OrdMap.Sorted Interface.links
  rw [List.pairwise_filterMap]
  refine i.sortedProperties.imp ?_
  rintro a b hab x hx y hy
  obtain ⟨v, -, rfl⟩ := Option.map_eq_some_iff.mp hx
  obtain ⟨w, -, rfl⟩ := Option.map_eq_some_iff.mp hy
  exact hab

/-- Exactly the interface, if and only if there was no other link. -/
theorem Recorded.exact_iff {i : Interface} {c : Connected} (h : Recorded i c) :
    c.after = tables i ↔
      ∀ k ∈ OrdMap.keys c.before.propertyDataStreamLinks, k ∈ OrdMap.keys i.links := by
  have hmem : ∀ (d : List (StdString × StdString)) k, k ∈ OrdMap.keys d ↔ OrdMap.find d k ≠ none :=
    fun d k => by rw [Ne, OrdMap.find_eq_none, not_not]
  constructor
  · intro heq k hk
    have hlinks := h.links k
    rw [heq] at hlinks
    rw [hmem] at hk ⊢
    intro hnone
    simp only [tables, hnone, Option.none_or] at hlinks
    exact hk hlinks.symm
  · intro hsub
    have hlinks : c.after.propertyDataStreamLinks = i.links := by
      refine h.knows.sorted.ext (sorted_links i) fun k => ?_
      rw [h.links]
      cases hfind : OrdMap.find i.links k with
      | some v => rfl
      | none =>
        have hbefore : OrdMap.find c.before.propertyDataStreamLinks k = none := by
          by_contra hne
          exact (hmem _ _).mp (hsub k ((hmem _ _).mpr hne)) hfind
        rw [hbefore]
        rfl
    obtain ⟨hp, hc, hd, -, -⟩ := h.knows
    cases hafter : c.after with
    | mk p q d l =>
      rw [hafter] at hp hc hd hlinks
      simp only at hp hc hd hlinks
      rw [hp, hc, hd, hlinks]
      rfl

/-- The last connection is to a frame that is never seen again, or the proxy knows
what its run lists. -/
structure UpToDate (env : Nat → Moment) (interface : Nat → Interface) (s : ServiceProxy) (n : Nat) : Prop where
  sorted : OrdMap.Sorted s.propertyDataStreamLinks
  last : (∀ k, n ≤ k → s.timeLastConnect ≠ (env k).frame.timeStamp) ∨
    ∃ k, k < n ∧ (env k).frame.timeStamp = s.timeLastConnect ∧ (env k).frame.state = .RUNNING ∧
      Knows (interface (env k).frame.run) s.toTables
  recorded : ∀ c ∈ s.connects, Recorded (interface c.frame.run) c

/-- **What `Connect` does.** -/
theorem connectAt_cases (m : Moment) (s : ServiceProxy) :
    (m.frame.state ≠ .RUNNING ∧ (connectAt m s).2 = s.disconnect) ∨
    (m.frame.state = .RUNNING ∧ s.timeLastConnect = m.frame.timeStamp ∧
      (connectAt m s).2 = s.returned m.frame s.toTables) ∨
    (m.frame.state = .RUNNING ∧ s.timeLastConnect ≠ m.frame.timeStamp ∧
      (((connectAt m s).2.timeLastConnect = s.timeLastConnect ∧ (connectAt m s).2.connects = s.connects ∧
        ∃ l, (connectAt m s).2.propertyDataStreamLinks = OrdMap.assignAll s.propertyDataStreamLinks l) ∨
      ∃ address reply, m.getInfo = .ok reply ∧
        (connectAt m s).2 = { { s.disconnect with client := some address }.fill reply with
          heartbeat := some reply.heartbeat_stream_id
          timeLastConnect := m.frame.timeStamp }.returned m.frame s.toTables)) := by
  unfold connectAt
  by_cases hrun : m.frame.state ≠ .RUNNING
  · exact .inl ⟨hrun, by rw [if_pos hrun]⟩
  · rw [if_neg hrun]
    have hrunning := not_not.mp hrun
    by_cases htime : s.timeLastConnect = m.frame.timeStamp
    · exact .inr (.inl ⟨hrunning, htime, by rw [if_pos htime]⟩)
    · rw [if_neg htime]
      refine .inr (.inr ⟨hrunning, htime, ?_⟩)
      cases m.serviceInfo with
      | error e => exact .inl ⟨rfl, rfl, [], rfl⟩
      | ok address =>
        cases m.getInfo with
        | error e => exact .inl ⟨rfl, rfl, [], rfl⟩
        | ok reply =>
          cases m.openStream with
          | error e => exact .inl ⟨rfl, rfl, reply.property_datastream_links, rfl⟩
          | ok u => exact .inr ⟨address, reply, rfl, rfl⟩

variable {interface : Nat → Interface}

/-- Once a newer frame was seen the last connection is not seen again. -/
theorem UpToDate.stale {s : ServiceProxy} {n : Nat} (h : UpToDate env interface s n)
    (hp : Published env interface)
    (hne : (env n).frame.state = .RUNNING → s.timeLastConnect ≠ (env n).frame.timeStamp) :
    ∀ k, n + 1 ≤ k → s.timeLastConnect ≠ (env k).frame.timeStamp := by
  intro k hk htime
  obtain hnever | ⟨j, hj, hlast, hrun, -⟩ := h.last
  · exact hnever k (by omega) htime
  · have hframe := hp.distinct j k (hlast.trans htime)
    have hnow := hp.newest j n k (by omega) (by omega) hframe
    rw [hnow] at hne
    exact hne hrun hlast.symm

/-- **A new connection.** The tables are those of the reply, and the links that
the reply does not list are those there were. -/
theorem knows_fill {i : Interface} {reply : GetInfoReply} (hr : SameReply i.handleGetInfo reply)
    (s : ServiceProxy) (hs : OrdMap.Sorted s.propertyDataStreamLinks) (address : StdString × Nat) :
    let filled := { s.disconnect with client := some address }.fill reply
    Knows i filled.toTables ∧ ∀ k, OrdMap.find filled.propertyDataStreamLinks k =
      (OrdMap.find i.links k).or (OrdMap.find s.propertyDataStreamLinks k) := by
  intro filled
  have hnodup : (OrdMap.keys reply.property_datastream_links).Nodup :=
    (hr.links.map Prod.fst).nodup_iff.mp (sorted_links i).nodup
  have hfind : ∀ k, OrdMap.find filled.propertyDataStreamLinks k =
      (OrdMap.find i.links k).or (OrdMap.find s.propertyDataStreamLinks k) := by
    intro k
    show OrdMap.find (OrdMap.assignAll s.propertyDataStreamLinks reply.property_datastream_links) k = _
    rw [OrdMap.find_assignAll _ _ hnodup, OrdMap.find_perm (sorted_links i).nodup hr.links]
  refine ⟨⟨hr.property_names, hr.command_names, ?_, fun k v hk => ?_,
    OrdMap.assignAll_sorted _ _ hs⟩, hfind⟩
  · have hids : (OrdMap.keys reply.datastream_ids).Nodup :=
      (hr.datastream_ids.map Prod.fst).nodup_iff.mp i.sortedDataStreams.nodup
    refine (OrdMap.assignAll_sorted _ _ List.Pairwise.nil).ext i.sortedDataStreams fun k => ?_
    rw [OrdMap.find_assignAll _ _ hids, OrdMap.find_perm i.sortedDataStreams.nodup hr.datastream_ids]
    exact Option.or_none
  · rw [hfind, hk]
    rfl

theorem kept_upToDate (hp : Published env interface) : Kept env (UpToDate env interface) where
  next s n h := by
    refine ⟨h.sorted, ?_, h.recorded⟩
    obtain hnever | ⟨k, hk, hlast⟩ := h.last
    · exact .inl fun k hk => hnever k (by omega)
    · exact .inr ⟨k, by omega, hlast⟩
  stream s n name id h := ⟨h.sorted, h.last, h.recorded⟩
  connect s n h := by
    obtain ⟨hrun, heq⟩ | ⟨hrun, htime, heq⟩ | ⟨hrun, htime, ⟨hlast, hconn, l, hl⟩ | ⟨address, reply, hi, heq⟩⟩ :=
      connectAt_cases (env n) s
    · rw [heq]
      exact ⟨h.sorted, .inl (h.stale hp fun hr => absurd hr hrun), h.recorded⟩
    · -- the shortcut: the frame is the one of the last connection
      have hknows : Knows (interface (env n).frame.run) s.toTables := by
        obtain hnever | ⟨k, hk, hlast, -, hknows⟩ := h.last
        · exact absurd htime (hnever n (Nat.le_refl n))
        · rw [← hp.distinct k n (hlast.trans htime)]
          exact hknows
      rw [heq]
      refine ⟨h.sorted, .inr ⟨n, Nat.lt_succ_self n, htime.symm, hrun, hknows⟩, fun c hc => ?_⟩
      rcases List.mem_append.mp hc with hc | hc
      · exact h.recorded c hc
      · rw [List.mem_singleton.mp hc]
        refine ⟨hrun, hknows, fun k => ?_⟩
        cases hfind : OrdMap.find (interface (env n).frame.run).links k with
        | none => rfl
        | some v => exact hknows.links k v hfind
    · refine ⟨?_, .inl ?_, ?_⟩
      · rw [hl]
        exact OrdMap.assignAll_sorted _ _ h.sorted
      · rw [hlast]
        exact h.stale hp fun _ => htime
      · rw [hconn]
        exact h.recorded
    · obtain ⟨hknows, hlinks⟩ := knows_fill (hp.info n reply hrun hi) s h.sorted address
      rw [heq]
      refine ⟨hknows.sorted, .inr ⟨n, Nat.lt_succ_self n, rfl, hrun, hknows⟩, fun c hc => ?_⟩
      rcases List.mem_append.mp hc with hc | hc
      · exact h.recorded c hc
      · rw [List.mem_singleton.mp hc]
        exact ⟨hrun, hknows, hlinks⟩

end ServiceProxy

open ServiceProxy

/-- **What the proxy knows.** Whenever `Connect` returned having seen the running
frame of a run, the names and the data streams are those the run lists; all
of the tables are, if and only if every property that had a link before has
one in that run. -/
theorem connected_iff {env : Nat → Moment} {interface : Nat → Interface} (hp : Published env interface)
    (calls : List ProxyCall) : ∀ c ∈ (ProxyCall.run env calls).2.1.connects,
      c.frame.state = .RUNNING ∧ Knows (interface c.frame.run) c.after ∧
      (c.after = tables (interface c.frame.run) ↔ ∀ k ∈ OrdMap.keys c.before.propertyDataStreamLinks,
        k ∈ OrdMap.keys (interface c.frame.run).links) := by
  intro c hc
  have h₀ : UpToDate env interface initial 0 := by
    refine ⟨List.Pairwise.nil, .inl fun k _ h => hp.nonzero k h.symm, fun c hc => ?_⟩
    cases hc
  have hrec := ((kept_upToDate hp).run h₀ calls).recorded c hc
  exact ⟨hrec.running, hrec.knows, hrec.exact_iff⟩

/-- A service that was restarted after the first look, with another interface. -/
def restarted (first second : Interface) (k : Nat) : Moment where
  frame := if k = 0 then ⟨.RUNNING, 1, 0⟩ else ⟨.RUNNING, 2, 1⟩
  polls := 0
  startService := .ok ()
  errorCheck := .ok ()
  serviceInfo := .ok (ascii "localhost", 5000)
  getInfo := .ok (if k = 0 then first.handleGetInfo else second.handleGetInfo)
  openStream := .ok ()
  latest := none
  request := .ok .noneValue

theorem published_restarted (first second : Interface) :
    Published (restarted first second) fun run => if run = 0 then first else second := by
  have hframe : ∀ k, (restarted first second k).frame = if k = 0 then ⟨.RUNNING, 1, 0⟩ else ⟨.RUNNING, 2, 1⟩ :=
    fun _ => rfl
  refine ⟨fun k => ?_, fun j k h => ?_, fun j k l hjk hkl h => ?_, fun k reply _ h => ?_⟩
  · rw [hframe]
    split <;> decide
  · rw [hframe, hframe] at h ⊢
    by_cases hj : j = 0
    · by_cases hk : k = 0
      · rw [if_pos hj, if_pos hk]
      · rw [if_pos hj, if_neg hk] at h
        exact absurd h (by decide)
    · by_cases hk : k = 0
      · rw [if_neg hj, if_pos hk] at h
        exact absurd h (by decide)
      · rw [if_neg hj, if_neg hk]
  · rw [hframe, hframe] at h ⊢
    by_cases hj : j = 0
    · rw [if_pos hj] at h ⊢
      by_cases hl : l = 0
      · rw [if_pos (by omega)]
      · rw [if_neg hl] at h
        exact absurd h (by decide)
    · rw [if_neg hj, if_neg (by omega)]
  · simp only [restarted, Except.ok.injEq] at h
    rw [hframe]
    subst h
    by_cases hk : k = 0
    · simp only [hk, if_true]
      exact ⟨rfl, rfl, .refl _, .refl _, rfl⟩
    · simp only [hk, if_false]
      exact ⟨rfl, rfl, .refl _, .refl _, rfl⟩

/-- A property with a stream, and the same one without. -/
def linked : Interface where
  properties := [(ascii "gain", some (ascii "gain_stream"))]
  commands := []
  dataStreams := [(ascii "gain_stream", ascii "7")]
  heartbeat := ascii "heartbeat"
  sortedProperties := List.pairwise_singleton _ _
  sortedDataStreams := List.pairwise_singleton _ _

def unlinked : Interface where
  properties := [(ascii "gain", none)]
  commands := []
  dataStreams := []
  heartbeat := ascii "heartbeat"
  sortedProperties := List.pairwise_singleton _ _
  sortedDataStreams := List.Pairwise.nil

theorem connected_iff_restarted :
    let run := ProxyCall.run (restarted unlinked linked) [.getPropertyNames]
    run.2.1.connects.length = 2 ∧ ∀ c ∈ run.2.1.connects, c.frame.state = .RUNNING :=
  ⟨rfl, fun c hc => (connected_iff (published_restarted unlinked linked) [.getPropertyNames] c hc).1⟩

/-- **The counterexample.** After the restart the property has no stream any
more, and the proxy still has the link. -/
theorem link_left_over : ¬ ∀ (env : Nat → Moment) (interface : Nat → Interface) (calls : List ProxyCall),
    Published env interface → ∀ c ∈ (ProxyCall.run env calls).2.1.connects,
      c.after = tables (interface c.frame.run) := by
  intro h
  have hall := h _ _ [.getPropertyNames] (published_restarted linked unlinked)
  obtain ⟨c, hc, hrun, hlinks⟩ : ∃ c ∈ (ProxyCall.run (restarted linked unlinked)
      [.getPropertyNames]).2.1.connects, c.frame.run = 1 ∧
        c.after.propertyDataStreamLinks = [(ascii "gain", ascii "gain_stream")] :=
    ⟨_, List.mem_cons_of_mem _ List.mem_cons_self, rfl, rfl⟩
  have heq := hall c hc
  rw [hrun] at heq
  rw [heq] at hlinks
  cases hlinks

end Catkit2.L4
