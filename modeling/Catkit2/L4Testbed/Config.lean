import Catkit2.Core.Except
import Catkit2.Core.OrdMap
import Catkit2.L1Encoding.Tensor
import Mathlib.Logic.Function.Basic

/-!
# The testbed's services (catkit2/testbed/testbed.py, Testbed.__init__)

A configuration lists the services in order; `init` is what the constructor
makes of it: the service references, for each service the services that
depend on it, and the check that shutting down can make progress from one
service to the next. `Testbed` is a testbed that was constructed, so that its
configuration is an accepted one.

* `mem_dependedOnBy`: a service is in the `depended_on_by` list of another
  exactly when it lists it in `depends_on`, or requires safety and the other is
  the safety service.
* `known_dependencies`: every dependency is itself a service.
-/
namespace Catkit2.L4

open Catkit2.L1

/-- mirrors catkit_core/ServiceState.h:6-16 -/
inductive ServiceState where
  | CLOSED | INITIALIZING | OPENING | RUNNING | CLOSING | UNRESPONSIVE | CRASHED | FAIL_SAFE
  deriving DecidableEq, Repr

/-- mirrors catkit_core/ServiceState.cpp:3-8 -/
def isAliveState (s : ServiceState) : Bool :=
  s = .INITIALIZING || s = .OPENING || s = .RUNNING

/-- The states from which a service can be started, and which the monitor
leaves alone.
mirrors catkit2/testbed/testbed.py:388, 603 -/
def startable (s : ServiceState) : Bool := s = .CLOSED || s = .CRASHED || s = .FAIL_SAFE

abbrev ServiceId := StdString

/-- One entry of `services`; `requires_safety` is `none` where the key is missing. -/
structure ServiceConfig where
  service_type : StdString
  simulated_service_type : Option StdString
  depends_on : List ServiceId
  requires_safety : Option Bool

/-- The parts of the configuration that concern the services.
`safety` is `config['testbed']['safety']['service_id']`, `service_paths` the
paths of the configuration. -/
structure TestbedConfig where
  services : List (ServiceId × ServiceConfig)
  safety : Option ServiceId
  service_paths : List StdString
  isSimulated : Bool

/-- mirrors catkit2/testbed/testbed.py:73-106 -/
structure ServiceReference where
  service_type : StdString
  dependencies : List ServiceId

/-- mirrors catkit2/testbed/testbed.py:235-242 -/
def serviceReference (c : TestbedConfig) (info : ServiceConfig) : ServiceReference where
  service_type := match c.isSimulated, info.simulated_service_type with
    | true, some type => type
    | _, _ => info.service_type
  dependencies := info.depends_on

/-! ## Dependents -/

/-- For each service, the services that depend on it. -/
abbrev Dependents := ServiceId → List ServiceId

/-- `self.services[service].depended_on_by.append(dependent)` -/
def addDependent (c : TestbedConfig) (dependent : ServiceId) (d : Dependents) (service : ServiceId) :
    Except String Dependents :=
  if service ∈ OrdMap.keys c.services then
    .ok (Function.update d service (d service ++ [dependent]))
  else .error "KeyError"

/-- mirrors catkit2/testbed/testbed.py:249-254 -/
def addSafety (c : TestbedConfig) (e : ServiceId × ServiceConfig) (d : Dependents) :
    Except String Dependents :=
  match e.2.requires_safety with
  | none => .error "KeyError: 'requires_safety'"
  | some false => .ok d
  | some true =>
    match c.safety with
    | some safety => addDependent c e.1 d safety
    | none => .error
      "Service requires safety but no safety service is specified in the configuration file."

/-- mirrors catkit2/testbed/testbed.py:245-254 -/
def addDependents (c : TestbedConfig) (d : Dependents) (e : ServiceId × ServiceConfig) :
    Except String Dependents :=
  e.2.depends_on.foldlM (addDependent c e.1) d >>= addSafety c e

/-- The services of `alive` that no service of `alive` depends on. -/
def shutDownList (d : Dependents) (alive : List ServiceId) : List ServiceId :=
  alive.filter fun s => (d s).all fun dependent => dependent ∉ alive

/-- The `while` loop, left after `fuel` iterations. One iteration at least
removes one service, so the number of services is enough.
mirrors catkit2/testbed/testbed.py:257-275 -/
def checkCircular (d : Dependents) : Nat → List ServiceId → Except String Unit
  | _, [] => .ok ()
  | 0, _ :: _ => .ok ()
  | fuel + 1, alive =>
    match shutDownList d alive with
    | [] => .error
      "Circular dependencies detected. Please fix the dependencies in your services.yml config."
    | list => checkCircular d fuel (alive.filter (· ∉ list))

/-- mirrors catkit2/testbed/testbed.py:235-275 -/
def init (c : TestbedConfig) : Except String Dependents :=
  c.services.foldlM (addDependents c) (fun _ => []) >>= fun d =>
    checkCircular d c.services.length (OrdMap.keys c.services) >>= fun _ => .ok d

/-- A testbed that was constructed: its configuration is a dictionary that
`__init__` accepts. -/
structure Testbed where
  config : TestbedConfig
  nodup : (OrdMap.keys config.services).Nodup
  dependedOnBy : Dependents
  accepted : init config = .ok dependedOnBy

namespace Testbed

/-- The keys of `self.services`, in order. -/
def ids (t : Testbed) : List ServiceId := OrdMap.keys t.config.services

/-- `self.services[id]` -/
def service (t : Testbed) (id : ServiceId) : Option ServiceReference :=
  (t.config.services.lookup id).map (serviceReference t.config)

/-- `self.services[id].dependencies` -/
def dependencies (t : Testbed) (id : ServiceId) : List ServiceId :=
  match t.service id with
  | some ref => ref.dependencies
  | none => []

end Testbed

/-! ## What the constructor computes -/

theorem addDependent_ok {c : TestbedConfig} {dependent service : ServiceId} {d d' : Dependents}
    (h : addDependent c dependent d service = .ok d') : service ∈ OrdMap.keys c.services ∧
      ∀ x y, x ∈ d' y ↔ x ∈ d y ∨ x = dependent ∧ y = service := by
  unfold addDependent at h
  split at h
  · rename_i hs
    cases h
    refine ⟨hs, fun x y => ?_⟩
    by_cases hy : y = service
    · subst hy; simp
    · simp [hy]
  · cases h

theorem foldlM_addDependent_ok {c : TestbedConfig} {dependent : ServiceId}
    {services : List ServiceId} {d d' : Dependents}
    (h : services.foldlM (addDependent c dependent) d = .ok d') :
    (∀ s ∈ services, s ∈ OrdMap.keys c.services) ∧
      ∀ x y, x ∈ d' y ↔ x ∈ d y ∨ x = dependent ∧ y ∈ services := by
  let R (l : List ServiceId) (d d' : Dependents) : Prop := (∀ s ∈ l, s ∈ OrdMap.keys c.services) ∧
    ∀ x y, x ∈ d' y ↔ x ∈ d y ∨ x = dependent ∧ y ∈ l
  refine foldlM_ok (R := R) ?_ ?_ services h
  · intro d
    simp [R]
  · intro s l d d₁ d' h1 h2
    obtain ⟨hs, hd₁⟩ := addDependent_ok h1
    obtain ⟨hk, hd'⟩ := h2
    refine ⟨fun x hx => ?_, fun x y => ?_⟩
    · rcases List.mem_cons.mp hx with rfl | hx
      · exact hs
      · exact hk x hx
    · rw [hd', hd₁, List.mem_cons]
      tauto

theorem addSafety_ok {c : TestbedConfig} {e : ServiceId × ServiceConfig} {d d' : Dependents}
    (h : addSafety c e d = .ok d') : ∀ x y, x ∈ d' y ↔
      x ∈ d y ∨ x = e.1 ∧ e.2.requires_safety = some true ∧ c.safety = some y := by
  intro x y
  unfold addSafety at h
  split at h
  · cases h
  · rename_i hr
    cases h
    simp [hr]
  · rename_i hr
    split at h
    · rename_i safety hs
      rw [(addDependent_ok h).2 x y, hr, hs]
      simp [eq_comm]
    · cases h

/-- `e` depends on `y`: by name, or because it requires safety. -/
def DependsOn (c : TestbedConfig) (e : ServiceId × ServiceConfig) (y : ServiceId) : Prop :=
  y ∈ e.2.depends_on ∨ e.2.requires_safety = some true ∧ c.safety = some y

theorem addDependents_ok {c : TestbedConfig} {e : ServiceId × ServiceConfig} {d d' : Dependents}
    (h : addDependents c d e = .ok d') : (∀ s ∈ e.2.depends_on, s ∈ OrdMap.keys c.services) ∧
      ∀ x y, x ∈ d' y ↔ x ∈ d y ∨ x = e.1 ∧ DependsOn c e y := by
  rw [addDependents, bind_ok_iff] at h
  obtain ⟨d₁, h1, h2⟩ := h
  obtain ⟨hk, hd₁⟩ := foldlM_addDependent_ok h1
  refine ⟨hk, fun x y => ?_⟩
  rw [addSafety_ok h2, hd₁]
  unfold DependsOn
  tauto

theorem foldlM_addDependents_ok {c : TestbedConfig} {es : List (ServiceId × ServiceConfig)}
    {d d' : Dependents} (h : es.foldlM (addDependents c) d = .ok d') :
    (∀ e ∈ es, ∀ s ∈ e.2.depends_on, s ∈ OrdMap.keys c.services) ∧
      ∀ x y, x ∈ d' y ↔ x ∈ d y ∨ ∃ e ∈ es, x = e.1 ∧ DependsOn c e y := by
  let R (l : List (ServiceId × ServiceConfig)) (d d' : Dependents) : Prop :=
    (∀ e ∈ l, ∀ s ∈ e.2.depends_on, s ∈ OrdMap.keys c.services) ∧
      ∀ x y, x ∈ d' y ↔ x ∈ d y ∨ ∃ e ∈ l, x = e.1 ∧ DependsOn c e y
  refine foldlM_ok (R := R) ?_ ?_ es h
  · intro d
    simp [R]
  · intro e l d d₁ d' h1 h2
    obtain ⟨hk₁, hd₁⟩ := addDependents_ok h1
    obtain ⟨hk, hd'⟩ := h2
    refine ⟨fun x hx => ?_, fun x y => ?_⟩
    · rcases List.mem_cons.mp hx with rfl | hx
      · exact hk₁
      · exact hk x hx
    · rw [hd', hd₁]
      simp only [List.mem_cons, exists_eq_or_imp]
      tauto

theorem init_ok {c : TestbedConfig} {d : Dependents} (h : init c = .ok d) :
    c.services.foldlM (addDependents c) (fun _ => []) = .ok d := by
  rw [init, bind_ok_iff] at h
  obtain ⟨d', h1, h2⟩ := h
  rw [bind_ok_iff] at h2
  obtain ⟨-, -, h3⟩ := h2
  cases h3
  exact h1

namespace Testbed

variable (t : Testbed)

theorem mem_dependedOnBy (x y : ServiceId) :
    x ∈ t.dependedOnBy y ↔ ∃ e ∈ t.config.services, x = e.1 ∧ DependsOn t.config e y := by
  rw [(foldlM_addDependents_ok (init_ok t.accepted)).2 x y]
  simp

theorem mem_ids {id : ServiceId} (h : id ∈ t.ids) : ∃ ref, t.service id = some ref := by
  unfold ids OrdMap.keys at h
  obtain ⟨e, he, rfl⟩ := List.mem_map.mp h
  have hs : (t.config.services.lookup e.1).isSome = true :=
    List.lookup_isSome_iff.mpr ⟨e, he, by simp⟩
  obtain ⟨info, hinfo⟩ := Option.isSome_iff_exists.mp hs
  exact ⟨_, by rw [service, hinfo]; rfl⟩

theorem ids_of_service {id : ServiceId} {ref : ServiceReference} (h : t.service id = some ref) :
    id ∈ t.ids := by
  unfold service at h
  cases hl : t.config.services.lookup id with
  | none => rw [hl] at h; cases h
  | some info =>
    obtain ⟨l₁, l₂, he, -⟩ := List.lookup_eq_some_iff.mp hl
    unfold ids OrdMap.keys
    rw [he]; simp

/-- Every dependency of a service is a service. -/
theorem known_dependencies {id d : ServiceId} (h : d ∈ t.dependencies id) : d ∈ t.ids := by
  unfold dependencies service at h
  cases hl : t.config.services.lookup id with
  | none => rw [hl] at h; cases h
  | some info =>
    rw [hl] at h
    have hmem : (id, info) ∈ t.config.services := by
      obtain ⟨l₁, l₂, he, -⟩ := List.lookup_eq_some_iff.mp hl
      rw [he]; simp
    exact (foldlM_addDependents_ok (init_ok t.accepted)).1 _ hmem d h

end Testbed

end Catkit2.L4
