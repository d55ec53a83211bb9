import Catkit2.Core.DepthFirst
import Catkit2.Core.LTS
import Catkit2.L4Testbed.Config

/-!
# Starting services (testbed.py Testbed.start_service, ServiceProxy.cpp ServiceProxy::Start)

Every call of a `ServiceProxy` first runs `Start`, which refuses a service
that crashed or went into fail safe and asks the testbed to start one that is
closed. The testbed starts the service and then, depth first, its
dependencies; its own list of startable states includes the two that `Start`
refuses, since an explicit request may restart them.

The host (`Host`) answers what the file system, the port allocation, the
process creation and the CPU settings answer. `launched` logs each process
that was created, with the state its service was in.

* `serve_iff`: a request launches such a service only where it names it,
  exactly when no other one is reached from the named service along
  `depends_on` through startable services.
* `restarts_are_requested`: so it is in every run whose requests all meet that
  condition when they are served, whatever the services do in between.
-/
namespace Catkit2.L4

open Catkit2.L1

/-! ## The proxy -/

/-- Whether `Start` asks the testbed to start the service.
mirrors catkit_core/ServiceProxy.cpp:178-207 -/
def start : ServiceState → Except String Bool
  | .CLOSED => .ok true
  | .INITIALIZING | .OPENING | .RUNNING => .ok false
  | .CLOSING => .error "The service is closing. Try restarting it later."
  | .UNRESPONSIVE => .error "The service is unresponsive. Try reconnecting later."
  | .CRASHED => .error "Refusing to start a crashed service. Ask the TestbedProxy to start it."
  | .FAIL_SAFE => .error "Refusing to start a fail safed service. Ask the TestbedProxy to start it."

/-- The states `Start` refuses to start a service from, though it can be started. -/
def refused (s : ServiceState) : Bool := s = .CRASHED || s = .FAIL_SAFE

/-! ## The testbed -/

/-- What the service references hold while the testbed runs. -/
structure Services where
  state : ServiceId → ServiceState
  process_id : ServiceId → Option Nat
  port : ServiceId → Nat
  shutdownRequested : Bool
  launched : List (ServiceId × ServiceState)

/-- The machine the testbed runs on. -/
structure Host where
  builtinServices : StdString
  pathExists : StdString → Bool
  getUnusedPort : Except String Nat
  popen : StdString → ServiceId → Nat → Except String Nat
  /-- CPU affinity and process priority -/
  tune : ServiceId → Except String Unit

/-- `os.path.join` -/
def pathJoin (a b : StdString) : StdString :=
  if b.bytes.head? = some 47 then b
  else if a.bytes = [] ∨ a.bytes.getLast? = some 47 then ⟨a.bytes ++ b.bytes⟩
  else ⟨a.bytes ++ 47 :: b.bytes⟩

def StdString.append (a b : StdString) : StdString := ⟨a.bytes ++ b.bytes⟩

/-- mirrors catkit2/testbed/testbed.py:735-756 -/
def resolveServiceType (t : Testbed) (h : Host) (type : StdString) : Except String StdString :=
  match (h.builtinServices :: t.config.service_paths).find? fun base => h.pathExists (pathJoin base type) with
  | some base => .ok (pathJoin base type)
  | none => .error "ValueError: Service type not recognized."

/-- mirrors catkit2/testbed/testbed.py:611-621 -/
def findExecutable (h : Host) (dirname type : StdString) : Except String StdString :=
  match [StdString.append type (ascii ".py"), StdString.append type (ascii ".exe"), type].find?
    fun file => h.pathExists (pathJoin dirname file) with
  | some file => .ok (pathJoin dirname file)
  | none => .error "RuntimeError: Service is not Python or C++."

/-- From the service type to the new process, and its port.
mirrors catkit2/testbed/testbed.py:609-664 -/
def createProcess (t : Testbed) (h : Host) (id : ServiceId) (type : StdString) :
    Except String (Nat × Nat) := do
  let dirname ← resolveServiceType t h type
  let executable ← findExecutable h dirname type
  let port ← h.getUnusedPort
  let pid ← h.popen executable id port
  pure (pid, port)

/-- mirrors catkit2/testbed/testbed.py:666-671 -/
def Services.launch (st : Services) (id : ServiceId) (pid port : Nat) : Services where
  state := Function.update st.state id .INITIALIZING
  process_id := Function.update st.process_id id (some pid)
  port := Function.update st.port id port
  shutdownRequested := st.shutdownRequested
  launched := st.launched ++ [(id, st.state id)]

/-- `start_service` up to its loop over the dependencies.
mirrors catkit2/testbed/testbed.py:595-705 -/
def startOne (t : Testbed) (h : Host) (st : Services) (id : ServiceId) : Entry Services String :=
  if st.shutdownRequested then
    .fail st "The testbed is shutting down. Starting new services is not allowed anymore."
  else match t.service id with
    | none => .fail st "Service is not a known service."
    | some ref =>
      if startable (st.state id) = false then .skip
      else match createProcess t h id ref.service_type with
        | .error e => .fail st e
        | .ok (pid, port) =>
          match h.tune id with
          | .error e => .fail (st.launch id pid port) e
          | .ok () => .visit (st.launch id pid port)

/-- `depth` is what the interpreter leaves of its recursion limit.
mirrors catkit2/testbed/testbed.py:578-709 -/
def startService (t : Testbed) (h : Host) (depth : Nat) : Services → ServiceId → Services × Option String :=
  dfs (startOne t h) t.dependencies "RecursionError: maximum recursion depth exceeded" depth

/-! ## Requests -/

/-- A `start_service` request: from `Start` of a proxy, or an explicit one
(`TestbedProxy::StartService`, a startup service). -/
inductive Request where
  | proxy (id : ServiceId)
  | explicit (id : ServiceId)
  deriving DecidableEq

def Request.target : Request → ServiceId
  | .proxy id | .explicit id => id

/-- One request, with its own log of launches. -/
def serve (t : Testbed) (h : Host) (depth : Nat) (st : Services) (r : Request) :
    Services × Option String :=
  startService t h depth { st with launched := [] } r.target

/-- A service in a state `Start` refuses was launched only by a request that
names it, and not through a proxy. -/
def OnlyRequested (r : Request) (launched : List (ServiceId × ServiceState)) : Prop :=
  ∀ p ∈ launched, refused p.2 = true → r = .explicit p.1

/-- `u` leads to `w` along `depends_on`, through startable services. -/
def Reaches (t : Testbed) (st : Services) : ServiceId → ServiceId → Prop :=
  Relation.ReflTransGen fun u w => startable (st.state u) = true ∧ w ∈ t.dependencies u

/-- No service that `Start` refuses is reached from the one that is named,
but the one an explicit request names. -/
def Unrefused (t : Testbed) (st : Services) (r : Request) : Prop :=
  st.shutdownRequested = false → r.target ∈ t.ids →
    ∀ d, Reaches t st r.target d → refused (st.state d) = true → r = .explicit d

/-! ## One service -/

theorem startable_of_refused {s : ServiceState} (h : refused s = true) : startable s = true := by
  cases s <;> simp_all [refused, startable]

/-- What entering a service can do: launch it, or nothing. -/
theorem startOne_visit {t : Testbed} {h : Host} {st st' : Services} {id : ServiceId}
    (hv : startOne t h st id = .visit st') : st.shutdownRequested = false ∧
      startable (st.state id) = true ∧ ∃ pid port, st' = st.launch id pid port := by
  unfold startOne at hv
  split at hv
  · cases hv
  · rename_i hs
    split at hv
    · cases hv
    · split at hv
      · cases hv
      · rename_i hst
        split at hv
        · cases hv
        · split at hv
          · cases hv
          · cases hv
            exact ⟨by simpa using hs, by simpa using hst, _, _, rfl⟩

theorem startOne_fail {t : Testbed} {h : Host} {st st' : Services} {id : ServiceId} {e : String}
    (hv : startOne t h st id = .fail st' e) : st' = st ∨ st.shutdownRequested = false ∧
      startable (st.state id) = true ∧ ∃ pid port, st' = st.launch id pid port := by
  unfold startOne at hv
  split at hv
  · cases hv; exact .inl rfl
  · rename_i hs
    split at hv
    · cases hv; exact .inl rfl
    · split at hv
      · cases hv
      · rename_i hst
        split at hv
        · cases hv; exact .inl rfl
        · split at hv
          · cases hv
            exact .inr ⟨by simpa using hs, by simpa using hst, _, _, rfl⟩
          · cases hv

theorem startOne_skip {t : Testbed} {h : Host} {st : Services} {id : ServiceId}
    (hv : startOne t h st id = .skip) : startable (st.state id) = false := by
  unfold startOne at hv
  split at hv
  · cases hv
  · split at hv
    · cases hv
    · split at hv
      · assumption
      · split at hv
        · cases hv
        · split at hv <;> cases hv

@[simp] theorem state_launch_self (st : Services) (id : ServiceId) (pid port : Nat) :
    (st.launch id pid port).state id = .INITIALIZING := by
  simp [Services.launch]

theorem state_launch_of_ne (st : Services) {id u : ServiceId} (pid port : Nat) (h : u ≠ id) :
    (st.launch id pid port).state u = st.state u := by
  simp [Services.launch, h]

/-! ## What a request launches -/

/-- The log holds services reached from the named one, each with the state
it was in, and no other service changed its state. -/
structure Launches (t : Testbed) (st : Services) (target : ServiceId) (st' : Services) : Prop where
  state : ∀ u, st'.state u = st.state u ∨ st'.state u = .INITIALIZING ∧ (u, st.state u) ∈ st'.launched
  shutdownRequested : st'.shutdownRequested = st.shutdownRequested
  launched : ∀ p ∈ st'.launched, st.state p.1 = p.2 ∧ Reaches t st target p.1

theorem Launches.launch {t : Testbed} {st st' : Services} {target id : ServiceId}
    (h : Launches t st target st') (hid : Reaches t st target id)
    (hs : startable (st'.state id) = true) (pid port : Nat) :
    Launches t st target (st'.launch id pid port) ∧ startable (st.state id) = true := by
  have hsame : st'.state id = st.state id := by
    rcases h.state id with he | ⟨he, -⟩
    · exact he
    · rw [he] at hs; cases hs
  refine ⟨⟨fun u => ?_, h.shutdownRequested, fun p hp => ?_⟩, by rw [← hsame]; exact hs⟩
  · by_cases hu : u = id
    · subst hu
      exact .inr ⟨state_launch_self _ _ _ _, by simp [Services.launch, hsame]⟩
    · rw [state_launch_of_ne _ _ _ hu]
      rcases h.state u with he | ⟨he, hl⟩
      · exact .inl he
      · exact .inr ⟨he, List.mem_append_left _ hl⟩
  · rcases List.mem_append.mp hp with hp | hp
    · exact h.launched p hp
    · rw [List.mem_singleton] at hp
      subst hp
      exact ⟨hsame.symm, hid⟩

/-- **What a request can launch.** Whatever the host answers. -/
theorem serve_launches (t : Testbed) (h : Host) (depth : Nat) (st : Services) (r : Request) :
    Launches t st r.target (serve t h depth st r).1 := by
  have hstart : Launches t st r.target { st with launched := [] } := by
    refine ⟨fun u => .inl rfl, rfl, ?_⟩
    intro p hp
    cases hp
  refine dfs_invariant (I := Launches t st r.target) (P := Reaches t st r.target) ?_ ?_ depth _ _
    hstart .refl
  · intro s v s' hs hv hvisit
    obtain ⟨-, hstart, pid, port, rfl⟩ := startOne_visit hvisit
    obtain ⟨h1, h2⟩ := hs.launch hv hstart pid port
    exact ⟨h1, fun w hw => hv.tail ⟨h2, hw⟩⟩
  · intro s v s' e hs hv hfail
    rcases startOne_fail hfail with rfl | ⟨-, hstart, pid, port, rfl⟩
    · exact hs
    · exact (hs.launch hv hstart pid port).1

/-- A request that is turned away launches nothing. -/
theorem serve_refused {t : Testbed} (h : Host) (depth : Nat) {st : Services} {r : Request}
    (hr : st.shutdownRequested = true ∨ r.target ∉ t.ids) :
    (serve t h depth st r).1.launched = [] := by
  have hunknown : r.target ∉ t.ids → t.service r.target = none := by
    intro hn
    cases hs : t.service r.target with
    | none => rfl
    | some ref => exact absurd (t.ids_of_service hs) hn
  have hfail : ∃ e, startOne t h { st with launched := [] } r.target =
      .fail { st with launched := [] } e := by
    unfold startOne
    rcases hr with hs | hn
    · rw [if_pos hs]; exact ⟨_, rfl⟩
    · split
      · exact ⟨_, rfl⟩
      · rw [hunknown hn]; exact ⟨_, rfl⟩
  obtain ⟨e, he⟩ := hfail
  cases depth with
  | zero => rfl
  | succ n => simp [serve, startService, dfs, he]

/-! ## What a request does launch -/

/-- A host on which everything can be started. -/
def Host.ideal : Host where
  builtinServices := ascii "services"
  pathExists _ := true
  getUnusedPort := .ok 8080
  popen _ _ _ := .ok 1
  tune _ := .ok ()

theorem createProcess_ideal (t : Testbed) (id : ServiceId) (type : StdString) :
    createProcess t .ideal id type = .ok (1, 8080) := rfl

theorem startOne_ideal {t : Testbed} {st : Services} {id : ServiceId} (hid : id ∈ t.ids)
    (hs : st.shutdownRequested = false) (st' : Services) (e : String) :
    startOne t .ideal st id ≠ .fail st' e := by
  obtain ⟨ref, href⟩ := t.mem_ids hid
  unfold startOne
  rw [if_neg (by simp [hs]), href]
  simp only [createProcess_ideal]
  split
  · simp
  · simp [Host.ideal]

/-- The services a request could still start. -/
def remaining (t : Testbed) (st : Services) : Nat := t.ids.countP fun id => startable (st.state id)

theorem remaining_launch {t : Testbed} {st : Services} {id : ServiceId} (hid : id ∈ t.ids)
    (hs : startable (st.state id) = true) (pid port : Nat) :
    remaining t (st.launch id pid port) < remaining t st := by
  obtain ⟨l₁, l₂, he⟩ := List.append_of_mem hid
  have hmono : ∀ l : List ServiceId,
      l.countP (fun u => startable ((st.launch id pid port).state u)) ≤
        l.countP fun u => startable (st.state u) := by
    intro l
    refine List.countP_mono_left fun u _ hu => ?_
    by_cases hui : u = id
    · subst hui; rw [state_launch_self] at hu; cases hu
    · rwa [state_launch_of_ne _ _ _ hui] at hu
  have hself : startable ((st.launch id pid port).state id) = false := by
    rw [state_launch_self]; rfl
  have h1 := hmono l₁
  have h2 := hmono l₂
  unfold remaining
  rw [he, List.countP_append, List.countP_append, List.countP_cons, List.countP_cons, hself, hs]
  simp only [Bool.false_eq_true, if_false, if_true]
  omega

/-- Starting marks a service as not startable any more. -/
theorem marks_startOne (t : Testbed) (h : Host) :
    Marks (startOne t h) fun st id => startable (st.state id) = false := by
  refine ⟨fun st v hv => startOne_skip hv, fun st v st' hv => ?_, fun st v st' u hv hu => ?_,
    fun st v st' u hv hu => ?_⟩
  · obtain ⟨-, -, pid, port, rfl⟩ := startOne_visit hv
    rw [state_launch_self]; rfl
  · obtain ⟨-, -, pid, port, rfl⟩ := startOne_visit hv
    by_cases huv : u = v
    · subst huv; rw [state_launch_self]; rfl
    · rw [state_launch_of_ne _ _ _ huv]; exact hu
  · obtain ⟨-, -, pid, port, rfl⟩ := startOne_visit hv
    by_cases huv : u = v
    · exact .inl huv
    · rw [state_launch_of_ne _ _ _ huv] at hu; exact .inr hu

/-- On an ideal host a request launches every startable service that is
reached from the named one. -/
theorem serve_ideal {t : Testbed} {st : Services} {r : Request}
    (hs : st.shutdownRequested = false) (hr : r.target ∈ t.ids) {d : ServiceId}
    (hd : Reaches t st r.target d) (hstart : startable (st.state d) = true) :
    (d, st.state d) ∈ (serve t .ideal (remaining t st + 1) st r).1.launched := by
  have hdone : (serve t .ideal (remaining t st + 1) st r).2 = none := by
    refine (dfs_completes (I := fun st => st.shutdownRequested = false) (P := (· ∈ t.ids))
      (μ := remaining t) ?_ ?_ _ { st with launched := [] } r.target hs hr (Nat.lt_succ_self _)).1
    · intro s v s' hs' hv hvisit
      obtain ⟨-, hstart, pid, port, rfl⟩ := startOne_visit hvisit
      exact ⟨hs', remaining_launch hv hstart pid port, fun w hw => t.known_dependencies hw⟩
    · intro s v s' e hs' hv
      exact startOne_ideal hv hs' s' e
  obtain ⟨hvisited, hcloses⟩ := dfs_closed (marks_startOne t .ideal) _ _ _ _ (Prod.ext rfl hdone)
  have hpath : Relation.ReflTransGen
      (fun u w => ¬ startable (st.state u) = false ∧ w ∈ t.dependencies u) r.target d :=
    Relation.ReflTransGen.mono (fun u w hu => ⟨by simpa using hu.1, hu.2⟩) _ _ hd
  have hend := hcloses.visited_of_path hvisited hpath
  rcases (serve_launches t .ideal (remaining t st + 1) st r).state d with he | ⟨-, hl⟩
  · have : startable (st.state d) = false := by rw [← he]; exact hend
    rw [hstart] at this
    cases this
  · exact hl

/-- **One request.** On every host it launches a service that `Start` refuses
only where it names it, exactly when no other one is reached. -/
theorem serve_iff (t : Testbed) (st : Services) (r : Request) :
    (∀ h depth, OnlyRequested r (serve t h depth st r).1.launched) ↔ Unrefused t st r := by
  constructor
  · intro hall hs hr d hd href
    exact hall .ideal (remaining t st + 1) (d, st.state d)
      (serve_ideal hs hr hd (startable_of_refused href)) href
  · intro hu h depth p hp href
    by_cases hs : st.shutdownRequested = true
    · rw [serve_refused h depth (.inl hs)] at hp; cases hp
    · by_cases hr : r.target ∈ t.ids
      · obtain ⟨h1, h2⟩ := (serve_launches t h depth st r).launched p hp
        rw [← h1] at href
        exact hu (by simpa using hs) hr p.1 h2 href
      · rw [serve_refused h depth (.inr hr)] at hp; cases hp

/-! ## Runs -/

/-- The services, the requests on their way to the testbed's server, and for
every process that was created the request it was created for. -/
structure System where
  services : Services
  inFlight : List Request
  history : List (Request × ServiceId × ServiceState)

inductive SystemStep where
  /-- A call of a proxy of the service (`Start`, `GetProperty`, `SetProperty`,
  `ExecuteCommand`, `GetDataStream`) reads its state. -/
  | proxy (id : ServiceId)
  | request (id : ServiceId)
  | serve (i : Nat) (h : Host) (depth : Nat)
  /-- A service, its registration or the monitor writes its state. -/
  | write (id : ServiceId) (state : ServiceState)
  | shutDown

/-- Requests are served one at a time, and a request in one step: nobody else writes a
state between the services that it starts. -/
def System.step (t : Testbed) (s : System) : SystemStep → Option System
  | .proxy id =>
    if id ∈ t.ids then
      match start (s.services.state id) with
      | .ok true => some { s with inFlight := s.inFlight ++ [.proxy id] }
      | _ => some s
    else none
  | .request id => some { s with inFlight := s.inFlight ++ [.explicit id] }
  | .serve i h depth =>
    match s.inFlight[i]? with
    | none => none
    | some r =>
      let st := (serve t h depth s.services r).1
      some { services := st
             inFlight := s.inFlight.eraseIdx i
             history := s.history ++ st.launched.map fun p => (r, p) }
  | .write id state =>
    some { s with services := { s.services with
      state := Function.update s.services.state id state } }
  | .shutDown => some { s with services := { s.services with shutdownRequested := true } }

/-- Every service is closed, and nothing was asked for. -/
def System.init (s : System) : Prop :=
  (∀ id, s.services.state id = .CLOSED) ∧ s.inFlight = [] ∧ s.history = []

def system (t : Testbed) : LTS System SystemStep := .ofFn System.init (System.step t)

/-- A service in a state `Start` refuses was only launched by an explicit
request for it. -/
def Requested (s : System) : Prop :=
  ∀ e ∈ s.history, refused e.2.2 = true → e.1 = .explicit e.2.1

/-- A request is served while no refused service but the one it asks for is
reached. -/
def ServedUnrefused (t : Testbed) (s : System) : SystemStep → Prop
  | .serve i _ _ => ∀ r, s.inFlight[i]? = some r → Unrefused t s.services r
  | _ => True

theorem requested_inductive (t : Testbed) :
    ((system t).restrict (ServedUnrefused t)).Inductive Requested := by
  refine ⟨fun s h => ?_, fun s l s' hs hst => ?_⟩
  · intro e he
    rw [h.2.2] at he
    cases he
  · obtain ⟨hg, hst⟩ := hst
    simp only [system, LTS.ofFn] at hst
    cases l with
    | proxy id =>
      simp only [System.step] at hst
      split at hst
      · split at hst <;> (simp only [Option.some.injEq] at hst; subst hst; exact hs)
      · cases hst
    | request id => simp only [System.step, Option.some.injEq] at hst; subst hst; exact hs
    | write id state => simp only [System.step, Option.some.injEq] at hst; subst hst; exact hs
    | shutDown => simp only [System.step, Option.some.injEq] at hst; subst hst; exact hs
    | serve i h depth =>
      simp only [System.step] at hst
      split at hst
      · cases hst
      · rename_i r hr
        simp only [Option.some.injEq] at hst; subst hst
        intro e he href
        rcases List.mem_append.mp he with he | he
        · exact hs e he href
        · obtain ⟨p, hp, rfl⟩ := List.mem_map.mp he
          exact (serve_iff t s.services r).mpr (hg r hr) h depth p hp href

/-- **Restarts are requested.** For every testbed: whatever the host does, a
request launches a crashed or fail-safed service only where it names it
explicitly, exactly when no other one is reached from the service it names;
and in every run that serves its requests in such states, no such service is
launched but by an explicit request for it. -/
theorem restarts_are_requested (t : Testbed) :
    (∀ st r, (∀ h depth, OnlyRequested r (serve t h depth st r).1.launched) ↔ Unrefused t st r) ∧
      ∀ s, ((system t).restrict (ServedUnrefused t)).Reachable s → Requested s :=
  ⟨serve_iff t, (requested_inductive t).reachable⟩

/-! ## A camera that depends on a power supply -/

def cameraId : ServiceId := ascii "camera"
def upsId : ServiceId := ascii "lab_ups"

def cameraConfig : TestbedConfig where
  services := [(cameraId, ⟨ascii "zwo_camera", none, [upsId], some false⟩),
    (upsId, ⟨ascii "snmp_ups", none, [], some false⟩)]
  safety := none
  service_paths := []
  isSimulated := false

def cameraTestbed : Testbed := ⟨cameraConfig, by decide, _, rfl⟩

def cameraStart : System :=
  ⟨⟨fun _ => .CLOSED, fun _ => none, fun _ => 0, false, []⟩, [], []⟩

theorem cameraStart_init : cameraStart.init := ⟨fun _ => rfl, rfl, rfl⟩

/-- Asked for a property while everything is closed, the camera is launched
with its power supply. -/
theorem restarts_are_requested_camera : ∃ s : System, s.history.length = 2 ∧ Requested s := by
  refine ⟨_, ?_, (restarts_are_requested cameraTestbed).2 _ ⟨cameraStart,
    [.proxy cameraId, .serve 0 .ideal 10], cameraStart_init,
    .cons ⟨trivial, rfl⟩ (.cons ⟨?_, rfl⟩ (.nil _))⟩⟩
  · decide
  · intro r _ _ _ d _ href
    cases href

/-- The power supply crashed, and the camera is asked for a property: the
request for the camera restarts the power supply. -/
theorem crashed_dependency_restarted : ¬ ∀ t s, (system t).Reachable s → Requested s := by
  intro h
  obtain ⟨s, hs, he⟩ : ∃ s, LTS.exec (System.step cameraTestbed) cameraStart
      [.write upsId .CRASHED, .proxy cameraId, .serve 0 .ideal 10] = some s ∧
      (Request.proxy cameraId, upsId, ServiceState.CRASHED) ∈ s.history := by
    refine ⟨_, rfl, ?_⟩
    decide
  have := h _ _ (.of_exec cameraStart_init hs) _ he rfl
  cases this

end Catkit2.L4
