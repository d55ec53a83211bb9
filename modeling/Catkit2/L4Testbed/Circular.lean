import Catkit2.Core.LeafRemoval
import Catkit2.L4Testbed.Config

/-!
# The check for circular dependencies (testbed.py Testbed.__init__)

The constructor removes services that no service left depends on, round after
round, and raises when a round removes none. The graph of a configuration has
an edge from a service to each service it depends on (`Edge`): by name, or
because it requires safety.

`Ends` is the `while` loop without a bound on its rounds.

* `ends_iff`: the loop ends, and `checkCircular` has enough rounds for it.
* `circular_iff_cycle`: of a configuration that names existing services only,
  the constructor raises the error exactly when the graph has a cycle.
-/
namespace Catkit2.L4

open Catkit2.L1

/-- The text of the error. -/
def circular : String :=
  "Circular dependencies detected. Please fix the dependencies in your services.yml config."

/-- The loop, started on `alive`, ends with `r`.
mirrors catkit2/testbed/testbed.py:257-275 -/
inductive Ends (d : Dependents) : List ServiceId → Except String Unit → Prop
  | done : Ends d [] (.ok ())
  | stuck {alive : List ServiceId} :
      alive ≠ [] → shutDownList d alive = [] → Ends d alive (.error circular)
  | round {alive : List ServiceId} {r : Except String Unit} :
      shutDownList d alive ≠ [] → Ends d (alive.filter (· ∉ shutDownList d alive)) r → Ends d alive r

/-- `x` depends on `y`. -/
def Edge (c : TestbedConfig) (x y : ServiceId) : Prop :=
  ∃ e ∈ c.services, x = e.1 ∧ DependsOn c e y

/-- Every dependency that is named exists, and so does the safety service
where one is required. -/
structure Named (c : TestbedConfig) : Prop where
  depends_on : ∀ e ∈ c.services, ∀ s ∈ e.2.depends_on, s ∈ OrdMap.keys c.services
  safety : ∀ e ∈ c.services, e.2.requires_safety = some true →
    ∃ s ∈ OrdMap.keys c.services, c.safety = some s

/-- Every service says whether it requires safety. -/
def Keyed (c : TestbedConfig) : Prop := ∀ e ∈ c.services, e.2.requires_safety ≠ none

variable {c : TestbedConfig} {d : Dependents}

/-! ## The loop -/

theorem mem_shutDownList {alive : List ServiceId} {s : ServiceId} :
    s ∈ shutDownList d alive ↔ s ∈ alive ∧ Leaf (fun x y => x ∈ d y) alive s := by
  unfold shutDownList Leaf
  simp only [List.mem_filter, List.all_eq_true, decide_eq_true_eq]
  exact and_congr_right fun _ => ⟨fun h u hu hd => h u hd hu, fun h u hd hu => h u hu hd⟩

/-- A round that removes a service leaves fewer of them. -/
theorem length_filter_lt {alive leaves : List ServiceId} {s : ServiceId} (hs : s ∈ alive)
    (hl : s ∈ leaves) : (alive.filter (· ∉ leaves)).length < alive.length :=
  List.length_filter_lt_length_iff_exists.mpr ⟨s, hs, by simpa using hl⟩

/-- The loop ends, within as many rounds as there are services. -/
theorem ends_iff (d : Dependents) : ∀ (fuel : Nat) (alive : List ServiceId),
    alive.length ≤ fuel → ∀ r, Ends d alive r ↔ checkCircular d fuel alive = r
  | fuel, [], _, r => by
    have hnil : checkCircular d fuel [] = .ok () := by cases fuel <;> rfl
    rw [hnil]
    constructor
    · intro h
      cases h with
      | done => rfl
      | stuck hne _ => exact absurd rfl hne
      | round hne _ => exact absurd rfl hne
    · rintro rfl
      exact .done
  | 0, _ :: _, hlen, _ => absurd hlen (Nat.not_succ_le_zero _)
  | fuel + 1, s :: rest, hlen, r => by
    cases hl : shutDownList d (s :: rest) with
    | nil =>
      simp only [checkCircular, hl]
      constructor
      · intro h
        cases h with
        | stuck _ _ => rfl
        | round hne _ => exact absurd hl hne
      · rintro rfl
        exact .stuck (List.cons_ne_nil _ _) hl
    | cons leaf leaves =>
      have hleaf : leaf ∈ shutDownList d (s :: rest) := by rw [hl]; exact List.mem_cons_self
      have hlt := length_filter_lt (mem_shutDownList.mp hleaf).1 hleaf
      have hle : ((s :: rest).filter (· ∉ shutDownList d (s :: rest))).length ≤ fuel := by omega
      rw [hl] at hle
      simp only [checkCircular, hl]
      rw [← ends_iff d fuel _ hle r]
      constructor
      · intro h
        cases h with
        | stuck _ hnil => rw [hl] at hnil; cases hnil
        | round _ h => rwa [hl] at h
      · intro h
        refine .round (by rw [hl]; exact List.cons_ne_nil _ _) ?_
        rwa [hl]

/-- The loop raises exactly when what it starts on has a cycle. -/
theorem Ends.iff_cyclic {alive : List ServiceId} {r : Except String Unit} (h : Ends d alive r) :
    (r = .error circular ∧ Cyclic (Within (fun x y => x ∈ d y) alive)) ∨
      (r = .ok () ∧ ¬ Cyclic (Within (fun x y => x ∈ d y) alive)) := by
  induction h with
  | done =>
    refine .inr ⟨rfl, ?_⟩
    rintro ⟨v, hv⟩
    obtain ⟨u, -, hu⟩ := Relation.TransGen.tail'_iff.mp hv
    cases hu.1
  | stuck hne hnil =>
    refine .inl ⟨rfl, ?_⟩
    by_contra hc
    obtain ⟨v, hv, hleaf⟩ := exists_leaf hne hc
    have hmem := mem_shutDownList.mpr ⟨hv, hleaf⟩
    rw [hnil] at hmem
    cases hmem
  | round _ _ ih =>
    rwa [cyclic_remove_iff fun v hv => (mem_shutDownList.mp hv).2] at ih

/-! ## The constructor -/

theorem addDependent_of_mem {dependent service : ServiceId} (h : service ∈ OrdMap.keys c.services)
    (d : Dependents) : ∃ d', addDependent c dependent d service = .ok d' := by
  unfold addDependent
  rw [if_pos h]
  exact ⟨_, rfl⟩

theorem addSafety_of_named (h : Named c) {e : ServiceId × ServiceConfig} (he : e ∈ c.services)
    (hk : e.2.requires_safety ≠ none) (d : Dependents) : ∃ d', addSafety c e d = .ok d' := by
  unfold addSafety
  split
  · rename_i hr; exact absurd hr hk
  · exact ⟨_, rfl⟩
  · rename_i hr
    obtain ⟨s, hs, hsafety⟩ := h.safety e he hr
    rw [hsafety]
    exact addDependent_of_mem hs d

/-- One service: only the missing key is in the way. -/
theorem addDependents_of_named (h : Named c) {e : ServiceId × ServiceConfig} (he : e ∈ c.services)
    (d : Dependents) : (e.2.requires_safety ≠ none → ∃ d', addDependents c d e = .ok d') ∧
      (¬ e.2.requires_safety ≠ none → addDependents c d e = .error "KeyError: 'requires_safety'") := by
  have hnames : ∃ d₁, e.2.depends_on.foldlM (addDependent c e.1) d = .ok d₁ := by
    rcases foldlM_ok_or_error (P := fun s => s ∈ OrdMap.keys c.services) (e := "KeyError")
      (fun s _ hs d => addDependent_of_mem hs d)
      (fun s hs hn => absurd (h.depends_on e he s hs) hn) d with ⟨-, hok⟩ | ⟨⟨s, hs, hn⟩, -⟩
    · exact hok
    · exact absurd (h.depends_on e he s hs) hn
  obtain ⟨d₁, hd₁⟩ := hnames
  constructor
  · intro hk
    obtain ⟨d₂, hd₂⟩ := addSafety_of_named h he hk d₁
    exact ⟨d₂, bind_ok_iff.mpr ⟨d₁, hd₁, hd₂⟩⟩
  · intro hk
    rw [addDependents, hd₁]
    show addSafety c e d₁ = _
    unfold addSafety
    rw [not_not.mp hk]

/-- The services are linked, unless a key is missing. -/
theorem foldlM_of_named (h : Named c) (d : Dependents) :
    Keyed c ∧ (∃ d', c.services.foldlM (addDependents c) d = .ok d') ∨
      ¬ Keyed c ∧ c.services.foldlM (addDependents c) d = .error "KeyError: 'requires_safety'" := by
  rcases foldlM_ok_or_error (P := fun e : ServiceId × ServiceConfig => e.2.requires_safety ≠ none)
    (fun e he hk d => (addDependents_of_named h he d).1 hk)
    (fun e he hk d => (addDependents_of_named h he d).2 hk) d with hok | ⟨⟨e, he, hn⟩, herr⟩
  · exact .inl hok
  · exact .inr ⟨fun hall => hn (hall e he), herr⟩

theorem edge_mem (h : Named c) {x y : ServiceId} (he : Edge c x y) :
    x ∈ OrdMap.keys c.services ∧ y ∈ OrdMap.keys c.services := by
  obtain ⟨e, hmem, rfl, hdep⟩ := he
  refine ⟨List.mem_map_of_mem hmem, ?_⟩
  rcases hdep with hd | ⟨hr, hs⟩
  · exact h.depends_on e hmem y hd
  · obtain ⟨s, hs', hsafety⟩ := h.safety e hmem hr
    rw [hs] at hsafety
    cases hsafety
    exact hs'

/-- What the constructor computes are the edges of the graph. -/
theorem mem_of_foldlM (h : c.services.foldlM (addDependents c) (fun _ => []) = .ok d) :
    (fun x y => x ∈ d y) = Edge c := by
  funext x y
  rw [(foldlM_addDependents_ok h).2 x y]
  simp [Edge]

/-- **Circular dependencies.** Of a configuration whose named services exist:
the loop ends whatever it starts with; and the constructor raises the error
for circular dependencies exactly when the graph has a cycle, and accepts the
configuration otherwise. A service without the mandatory key is turned away
before the check. -/
theorem circular_iff_cycle (c : TestbedConfig) (h : Named c) :
    (∀ d alive, ∃ r, Ends d alive r) ∧
    (Keyed c → (init c = .error circular ↔ Cyclic (Edge c)) ∧
      (¬ Cyclic (Edge c) → ∃ d, init c = .ok d)) ∧
    (¬ Keyed c → init c = .error "KeyError: 'requires_safety'") := by
  refine ⟨fun d alive => ⟨_, (ends_iff d _ alive (Nat.le_refl _) _).mpr rfl⟩, ?_, ?_⟩
  · intro hk
    obtain ⟨d, hd⟩ : ∃ d, c.services.foldlM (addDependents c) (fun _ => []) = .ok d := by
      rcases foldlM_of_named h (fun _ => []) with ⟨-, hok⟩ | ⟨hn, -⟩
      · exact hok
      · exact absurd hk hn
    have hlen : (OrdMap.keys c.services).length ≤ c.services.length := by simp [OrdMap.keys]
    have hends := ((ends_iff d _ _ hlen _).mpr rfl).iff_cyclic
    rw [mem_of_foldlM hd, cyclic_within_iff fun _ _ => edge_mem h] at hends
    have hinit : init c = checkCircular d c.services.length (OrdMap.keys c.services) >>= fun _ => .ok d := by
      rw [init, hd]; rfl
    rw [hinit]
    rcases hends with ⟨hr, hc⟩ | ⟨hr, hc⟩
    · rw [hr]
      exact ⟨⟨fun _ => hc, fun _ => rfl⟩, fun hn => absurd hc hn⟩
    · rw [hr]
      exact ⟨⟨fun he => (by cases he), fun hc' => absurd hc' hc⟩, fun _ => ⟨d, rfl⟩⟩
  · intro hk
    rcases foldlM_of_named h (fun _ => []) with ⟨hk', -⟩ | ⟨-, herr⟩
    · exact absurd hk' hk
    · rw [init, herr]; rfl

/-- The safety monitor reads a sensor that itself requires safety. -/
def loopConfig : TestbedConfig where
  services := [(ascii "safety", ⟨ascii "safety_monitor", none, [ascii "sensor"], some false⟩),
    (ascii "sensor", ⟨ascii "omega_ithx_w3", none, [], some true⟩)]
  safety := some (ascii "safety")
  service_paths := []
  isSimulated := false

theorem circular_iff_cycle_loop : Cyclic (Edge loopConfig) := by
  refine (((circular_iff_cycle loopConfig ⟨?_, ?_⟩).2.1 ?_).1).mp (by rfl)
  · decide
  · decide
  · unfold Keyed; decide

end Catkit2.L4
