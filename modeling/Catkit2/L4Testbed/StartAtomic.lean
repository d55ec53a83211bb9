import Catkit2.L4Testbed.Start

/-!
# A start that fails (testbed.py Testbed.start_service)

`start_service` launches the process of a service, records it and adds it to
the list of launched processes. Then it sets CPU affinity and priority, which
may raise, and starts the dependencies, each of which may raise. Nothing is
taken back.

* `start_raises_iff`: with enough recursion depth a start that launches its service
  raises exactly when some startable service that it reaches cannot be launched
  or set up.
* `start_atomic_iff`: so a start that raises has changed nothing, exactly when its
  own service is not launched or all that it reaches can be.
-/
namespace Catkit2.L4

open Catkit2.L1

/-! ## Affinity and priority -/

/-- A section of the configuration with an entry for each host name: for some
services, and "default", a value or null. -/
abbrev PerHost (α : Type) := List (StdString × List (ServiceId × Option α))

/-- `config[host_name].get(service_id, config[host_name].get('default'))`,
`none` where the host has no entry.
mirrors catkit2/testbed/testbed.py:669-679, 688-697 -/
def PerHost.setting {α : Type} (c : PerHost α) (host_name : StdString) (id : ServiceId) : Option α :=
  match c.lookup host_name with
  | none => none
  | some entries =>
    match entries.lookup id with
    | some value => value
    | none => (entries.lookup (ascii "default")).join

/-- A section is empty where the key is missing. -/
structure TuneConfig where
  host_name : StdString
  cpu_affinity : PerHost (List Nat)
  process_priority : PerHost StdString

/-- What `psutil` answers about a new process, `none` where it is gone. -/
structure Process where
  cpu_affinity : List Nat → Option (Except String Unit)
  nice : Int → Option (Except String Unit)

/-- `NICE_VALUES`, but on Windows.
mirrors catkit2/testbed/testbed.py:34-40 -/
def niceValues : List (StdString × Int) :=
  [(ascii "idle", 20), (ascii "below_normal", 10), (ascii "normal", 0), (ascii "above_normal", -10),
    (ascii "high", -20)]

/-- mirrors catkit2/testbed/testbed.py:668-703 -/
def tune (c : TuneConfig) (process : ServiceId → Process) (id : ServiceId) : Except String Unit := do
  match c.cpu_affinity.setting c.host_name id with
  | none | some [] => pure ()
  | some affinity =>
    match (process id).cpu_affinity affinity with
    | none => .error "AttributeError: 'NoneType' object has no attribute 'cpu_affinity'"
    | some answer => answer
  match c.process_priority.setting c.host_name id with
  | none | some ⟨[]⟩ => pure ()
  | some priority =>
    match niceValues.lookup priority with
    | none => .error "KeyError"
    | some value =>
      match (process id).nice value with
      | none => .error "AttributeError: 'NoneType' object has no attribute 'nice'"
      | some answer => answer

/-! ## What a start needs -/

/-- The service can be launched and set up. -/
def Launchable (t : Testbed) (h : Host) (id : ServiceId) : Prop :=
  ∃ ref, t.service id = some ref ∧ (createProcess t h id ref.service_type).isOk = true ∧ (h.tune id).isOk = true

/-- A start of the service ends before it launches it: services may not be
started, there is no such service, it was started, or no process is made. -/
def EndsEarly (t : Testbed) (h : Host) (st : Services) (id : ServiceId) : Prop :=
  st.shutdownRequested = false → ∀ ref, t.service id = some ref → startable (st.state id) = true →
    (createProcess t h id ref.service_type).isOk = false

variable {t : Testbed} {h : Host} {st st' : Services} {id : ServiceId}

theorem startOne_of_endsEarly (he : EndsEarly t h st id) :
    startOne t h st id = .skip ∨ ∃ e, startOne t h st id = .fail st e := by
  unfold startOne
  split
  · exact .inr ⟨_, rfl⟩
  · rename_i hs
    split
    · exact .inr ⟨_, rfl⟩
    · rename_i ref href
      split
      · exact .inl rfl
      · rename_i hst
        have hnone := he (by simpa using hs) ref href (by simpa using hst)
        cases hc : createProcess t h id ref.service_type with
        | error e => exact .inr ⟨e, rfl⟩
        | ok p =>
          rw [hc] at hnone
          cases hnone

/-- Otherwise the service is launched, whether or not it can be set up. -/
theorem startOne_of_not_endsEarly (he : ¬ EndsEarly t h st id) : ∃ pid port,
    startOne t h st id = .visit (st.launch id pid port) ∨
      ∃ e, startOne t h st id = .fail (st.launch id pid port) e := by
  unfold EndsEarly at he
  push Not at he
  obtain ⟨hs, ref, href, hst, hc⟩ := he
  unfold startOne
  rw [if_neg (by simp [hs]), href]
  dsimp only
  rw [if_neg (by simp [hst])]
  cases hp : createProcess t h id ref.service_type with
  | error e =>
    rw [hp] at hc
    exact absurd rfl hc
  | ok p =>
    obtain ⟨pid, port⟩ := p
    refine ⟨pid, port, ?_⟩
    dsimp only
    cases h.tune id with
    | error e => exact .inr ⟨e, rfl⟩
    | ok _ => exact .inl rfl

theorem launchable_of_visit (hv : startOne t h st id = .visit st') : Launchable t h id := by
  unfold startOne at hv
  split at hv
  · cases hv
  · split at hv
    · cases hv
    · rename_i ref href
      split at hv
      · cases hv
      · split at hv
        · cases hv
        · rename_i hc
          split at hv
          · cases hv
          · rename_i htune
            exact ⟨ref, href, by rw [hc]; rfl, by rw [htune]; rfl⟩

theorem startOne_of_launchable (hs : st.shutdownRequested = false)
    (hl : startable (st.state id) = true → Launchable t h id) (hid : id ∈ t.ids) (st' : Services) (e : String) :
    startOne t h st id ≠ .fail st' e := by
  obtain ⟨ref, href⟩ := t.mem_ids hid
  unfold startOne
  rw [if_neg (by simp [hs]), href]
  dsimp only
  split
  · simp
  · rename_i hst
    obtain ⟨ref', href', hcreate, htune⟩ := hl (by simpa using hst)
    cases href.symm.trans href'
    cases hc : createProcess t h id ref.service_type with
    | error e =>
      rw [hc] at hcreate
      cases hcreate
    | ok p =>
      cases ht : h.tune id with
      | error e =>
        rw [ht] at htune
        cases htune
      | ok _ => simp

/-! ## A start -/

theorem startService_of_endsEarly (he : EndsEarly t h st id) (depth : Nat) :
    (startService t h depth st id).1 = st := by
  cases depth with
  | zero => rfl
  | succ n =>
    rcases startOne_of_endsEarly he with hskip | ⟨e, hfail⟩
    · simp [startService, dfs, hskip]
    · simp [startService, dfs, hfail]

/-- Processes are only added. -/
theorem length_launched_startService (depth : Nat) (k : Nat) (hk : k ≤ st.launched.length) :
    k ≤ (startService t h depth st id).1.launched.length := by
  refine dfs_invariant (I := fun s => k ≤ s.launched.length) (P := fun _ => True) ?_ ?_ depth st id hk trivial
  · intro s v s' hs _ hv
    obtain ⟨-, -, pid, port, rfl⟩ := startOne_visit hv
    refine ⟨?_, fun _ _ => trivial⟩
    simp only [Services.launch, List.length_append]
    omega
  · intro s v s' e hs _ hv
    rcases startOne_fail hv with rfl | ⟨-, -, pid, port, rfl⟩
    · exact hs
    · simp only [Services.launch, List.length_append]
      omega

/-- A service that is launched stays launched. -/
theorem startService_ne_of_not_endsEarly (he : ¬ EndsEarly t h st id) {depth : Nat} (hd : 0 < depth) :
    (startService t h depth st id).1 ≠ st := by
  obtain ⟨n, rfl⟩ : ∃ n, depth = n + 1 := ⟨depth - 1, by omega⟩
  obtain ⟨pid, port, hone⟩ := startOne_of_not_endsEarly he
  have hlaunch : st.launched.length + 1 ≤ (st.launch id pid port).launched.length := by
    simp [Services.launch]
  have hlonger : st.launched.length + 1 ≤ (startService t h (n + 1) st id).1.launched.length := by
    rcases hone with hvisit | ⟨e, hfail⟩
    · simp only [startService, dfs, hvisit]
      refine forEach_invariant (I := fun s : Services => st.launched.length + 1 ≤ s.launched.length) (P := fun _ => True)
        ?_ _ _ hlaunch fun _ _ => trivial
      intro s v hs _
      exact length_launched_startService n _ hs
    · simpa only [startService, dfs, hfail] using hlaunch
  intro heq
  rw [heq] at hlonger
  omega

/-- A start that ends without an error has launched all that it reaches. -/
theorem launchable_of_started {depth : Nat} (hok : (startService t h depth st id).2 = none) {d : ServiceId}
    (hd : Reaches t st id d) (hst : startable (st.state d) = true) : Launchable t h d := by
  have hrun : startService t h depth st id = ((startService t h depth st id).1, none) := Prod.ext rfl hok
  obtain ⟨hvisited, hcloses⟩ := dfs_closed (marks_startOne t h) _ _ _ _ hrun
  have hpath : Relation.ReflTransGen
      (fun u w => ¬ startable (st.state u) = false ∧ w ∈ t.dependencies u) id d :=
    Relation.ReflTransGen.mono (fun u w hu => ⟨by simpa using hu.1, hu.2⟩) _ _ hd
  have hend := hcloses.visited_of_path hvisited hpath
  have hkept : ∀ u, (startService t h depth st id).1.state u = st.state u ∨ Launchable t h u := by
    refine dfs_ok_invariant (I := fun s => ∀ u, s.state u = st.state u ∨ Launchable t h u) ?_ depth st id _
      (fun u => .inl rfl) hrun
    intro s v s' hs hv u
    obtain ⟨-, -, pid, port, rfl⟩ := startOne_visit hv
    by_cases huv : u = v
    · subst huv
      exact .inr (launchable_of_visit hv)
    · rw [state_launch_of_ne _ _ _ huv]
      exact hs u
  rcases hkept d with hsame | hl
  · rw [hsame, hst] at hend
    cases hend
  · exact hl

/-- With enough depth, a start of what can be launched ends without an error. -/
theorem started_of_launchable (hs : st.shutdownRequested = false) (hid : id ∈ t.ids)
    (hl : ∀ d, Reaches t st id d → startable (st.state d) = true → Launchable t h d) {depth : Nat}
    (hdepth : remaining t st < depth) : (startService t h depth st id).2 = none := by
  refine (dfs_completes (I := fun s => s.shutdownRequested = false ∧
      ∀ u, startable (s.state u) = true → startable (st.state u) = true)
    (P := fun v => v ∈ t.ids ∧ Reaches t st id v) (μ := remaining t) ?_ ?_ depth st id
    ⟨hs, fun _ hu => hu⟩ ⟨hid, .refl⟩ hdepth).1
  · rintro s v s' ⟨hshut, hmono⟩ ⟨hv, hreach⟩ hvisit
    obtain ⟨-, hstart, pid, port, rfl⟩ := startOne_visit hvisit
    refine ⟨⟨hshut, fun u hu => ?_⟩, remaining_launch hv hstart pid port, fun w hw => ?_⟩
    · by_cases huv : u = v
      · subst huv
        exact hmono _ hstart
      · rw [state_launch_of_ne _ _ _ huv] at hu
        exact hmono u hu
    · exact ⟨t.known_dependencies hw, hreach.tail ⟨hmono v hstart, hw⟩⟩
  · rintro s v s' e ⟨hshut, hmono⟩ ⟨hv, hreach⟩
    exact startOne_of_launchable hshut (fun hst => hl v hreach (hmono v hst)) hv s' e

/-- **When a start raises** that launches its service. -/
theorem start_raises_iff (he : ¬ EndsEarly t h st id) {depth : Nat} (hdepth : remaining t st < depth) :
    (∃ e, (startService t h depth st id).2 = some e) ↔
      ∃ d, Reaches t st id d ∧ startable (st.state d) = true ∧ ¬ Launchable t h d := by
  constructor
  · rintro ⟨e, hraise⟩
    by_contra hall
    push Not at hall
    unfold EndsEarly at he
    push Not at he
    obtain ⟨hs, ref, href, -, -⟩ := he
    rw [started_of_launchable hs (t.ids_of_service href) hall hdepth] at hraise
    cases hraise
  · rintro ⟨d, hreach, hst, hnot⟩
    cases hok : (startService t h depth st id).2 with
    | some e => exact ⟨e, rfl⟩
    | none => exact absurd (launchable_of_started hok hreach hst) hnot

/-- **A start is all or nothing**: whatever is left of the recursion limit, as long
as it is enough for the services that may be started, a start that raises
leaves states, process ids, ports and launched processes as they were, exactly
when it ends before it launches its service, or every startable service that
is reached from it along `depends_on` can be launched and set up. -/
theorem start_atomic_iff (t : Testbed) (h : Host) (st : Services) (id : ServiceId) :
    (∀ depth, remaining t st < depth → ∀ e, (startService t h depth st id).2 = some e →
      (startService t h depth st id).1 = st) ↔
        EndsEarly t h st id ∨ ∀ d, Reaches t st id d → startable (st.state d) = true → Launchable t h d := by
  constructor
  · intro hatomic
    by_contra hnot
    push Not at hnot
    obtain ⟨he, hbroken⟩ := hnot
    have hdepth := Nat.lt_succ_self (remaining t st)
    obtain ⟨e, hraise⟩ := (start_raises_iff he hdepth).mpr hbroken
    exact startService_ne_of_not_endsEarly he (Nat.succ_pos _) (hatomic _ hdepth e hraise)
  · intro hcond depth hdepth e hraise
    by_cases he : EndsEarly t h st id
    · exact startService_of_endsEarly he depth
    · obtain ⟨d, hreach, hst, hnot⟩ := (start_raises_iff he hdepth).mp ⟨e, hraise⟩
      rcases hcond with hearly | hall
      · exact absurd hearly he
      · exact absurd (hall d hreach hst) hnot

/-! ## A priority that may not be set -/

/-- The camera is to run at high priority, which the testbed has no right to give. -/
def deniedHost : Host :=
  { Host.ideal with
    tune := tune
      { host_name := ascii "lab"
        cpu_affinity := []
        process_priority := [(ascii "lab", [(cameraId, some (ascii "high"))])] }
      fun _ => ⟨fun _ => some (.ok ()), fun _ => some (.error "psutil.AccessDenied")⟩ }

/-- **The counterexample.** The error comes when the camera runs. -/
theorem start_raises_launched : ¬ ∀ (t : Testbed) (h : Host) (s : System), (system t).Reachable s →
    ∀ depth, remaining t s.services < depth → ∀ id e, (startService t h depth s.services id).2 = some e →
      (startService t h depth s.services id).1 = s.services := by
  intro hall
  have hsame := hall cameraTestbed deniedHost cameraStart (.of_init cameraStart_init) 3 (by decide) cameraId
    "psutil.AccessDenied" (by decide)
  have hlaunched := congrArg Services.launched hsame
  exact absurd hlaunched (by decide)

end Catkit2.L4
