import Catkit2.L3Service.SafetyMonitor
import Catkit2.L4Testbed.ShutDown

/-!
# Which service is the safety service (testbed.py, TestbedProxy.cpp, Service.cpp)

The configuration names the safety service. The testbed starts it first, and
counts every service that requires safety among its dependents, so that it is
shut down after them. A service that requires safety asks the testbed for the
service called "safety" and looks at its stream `is_safe`.

What that stream holds is a parameter, for every service: a stream, or the
error of `GetDataStream`.

* `startsAndOutlives_of_safety`: start-up and shutdown go by the configuration,
  whatever the name is.
* `asks_configured_iff`: the check goes by it when the name is "safety".
-/
namespace Catkit2.L4

open Catkit2.L1 Catkit2.L2 Catkit2.L3

/-- `listed` are the `startup_services` of the configuration.
mirrors catkit2/testbed/testbed.py:220-232 -/
def startupServices (c : TestbedConfig) (listed : List ServiceId) : List ServiceId :=
  c.safety.toList ++ listed ++ if c.isSimulated then [ascii "simulator"] else []

namespace Testbed

/-- The service that the proxy is for, which its constructor looks up.
mirrors catkit_core/TestbedProxy.cpp:27-39, ServiceProxy.cpp:15-32 -/
def getService (t : Testbed) (service_id : ServiceId) : Except StdString ServiceId :=
  if service_id ∈ t.ids then .ok service_id
  else .error ⟨(ascii "Service ").bytes ++ service_id.bytes ++ (ascii " is a nonexistent service id.").bytes⟩

/-- The service whose stream is read.
mirrors catkit_core/Service.cpp:230-231 -/
def asked (t : Testbed) : Except StdString ServiceId := t.getService (ascii "safety")

/-- `is_safe` is what `GetDataStream("is_safe")` finds on a service.
mirrors catkit_core/Service.cpp:223-267 -/
def isSafe (t : Testbed) (is_safe : ServiceId → Except String DataStream) (info : ServiceConfig)
    (currentTime : UInt64) : Bool :=
  L3.isSafe (info.requires_safety = some true)
    (match t.asked with
      | .ok service_id => is_safe service_id
      | .error _ => .error "nonexistent service id") currentTime

/-! ## Start-up and shutdown -/

/-- The service is started with the testbed, and in no state of a shutdown is
it its turn while `dependent` was not seen gone. -/
structure StartsAndOutlives (t : Testbed) (listed : List ServiceId) (dependent service : ServiceId) : Prop where
  started : service ∈ startupServices t.config listed
  outlives : ∀ s : ShutDown, s.eligible t service = true → dependent ∉ s.keys

theorem startsAndOutlives_of_safety (t : Testbed) (listed : List ServiceId) {e : ServiceId × ServiceConfig}
    (he : e ∈ t.config.services) (hs : e.2.requires_safety = some true) {safety : ServiceId}
    (hc : t.config.safety = some safety) : t.StartsAndOutlives listed e.1 safety := by
  refine ⟨by simp [startupServices, hc], fun s helig => ?_⟩
  exact ShutDown.eligible_iff.mp helig e.1 ((t.mem_dependedOnBy _ _).mpr ⟨e, he, rfl, .inr ⟨hs, hc⟩⟩)

/-- An accepted configuration names a service for those that require safety. -/
theorem safety_of_required (t : Testbed) {e : ServiceId × ServiceConfig} (he : e ∈ t.config.services)
    (hs : e.2.requires_safety = some true) : ∃ safety, t.config.safety = some safety ∧ safety ∈ t.ids := by
  have hall : ∀ e ∈ t.config.services, e.2.requires_safety = some true →
      ∃ safety, t.config.safety = some safety ∧ safety ∈ t.ids := by
    refine foldlM_ok (R := fun l (_ _ : Dependents) => ∀ e ∈ l, e.2.requires_safety = some true →
      ∃ safety, t.config.safety = some safety ∧ safety ∈ t.ids) ?_ ?_ _ (init_ok t.accepted)
    · intro _ e he
      cases he
    · intro e l d d₁ d' h1 h2 e' he' hs'
      rcases List.mem_cons.mp he' with rfl | he'
      · rw [addDependents, bind_ok_iff] at h1
        obtain ⟨d₂, -, h3⟩ := h1
        unfold addSafety at h3
        rw [hs'] at h3
        dsimp only at h3
        split at h3
        · rename_i safety hc
          exact ⟨safety, hc, (addDependent_ok h3).1⟩
        · cases h3
      · exact h2 e' he' hs'
  exact hall e he hs

/-! ## The check -/

theorem isSafe_of_asked (t : Testbed) {info : ServiceConfig} (hs : info.requires_safety = some true)
    {safety : ServiceId} (h : t.asked = .ok safety) (is_safe : ServiceId → Except String DataStream)
    (now : UInt64) : t.isSafe is_safe info now = L3.isSafe true (is_safe safety) now := by
  simp [isSafe, h, hs]

/-- One entry whose check passed just now. -/
theorem exists_safe_stream : ∃ stream now, L3.isSafe true (.ok stream) now = true := by
  let c : Safeties := ⟨[], List.nodup_nil, by decide⟩
  obtain ⟨s₀, hs₀⟩ : ∃ s₀, makeIsSafeStream c = .ok s₀ := ⟨_, rfl⟩
  refine ⟨monitor numpy2 c s₀ [⟨0, fun _ _ _ => .error "", 0⟩], 0, (isSafe_iff numpy2 hs₀ _ 0).mpr ⟨[], _, rfl, ?_, ?_, ?_⟩⟩
  · decide
  · decide
  · intro b hb
    cases hb

/-- The service called "safety" is asked, whatever another one reports. -/
theorem not_asked_other (t : Testbed) {safety : ServiceId} (hne : safety ≠ ascii "safety")
    {info : ServiceConfig} (hs : info.requires_safety = some true) :
    ∃ is_safe now, L3.isSafe true (is_safe safety) now = true ∧ t.isSafe is_safe info now = false := by
  obtain ⟨stream, now, hsafe⟩ := exists_safe_stream
  refine ⟨fun id => if id = safety then .ok stream else .error "no such stream", now, by simpa using hsafe, ?_⟩
  have hother : ∀ id, t.asked = .ok id → id ≠ safety := by
    intro id hid
    unfold asked getService at hid
    split at hid
    · cases hid
      exact Ne.symm hne
    · cases hid
  unfold isSafe
  cases hasked : t.asked with
  | ok id => simp [hother id hasked, hs, L3.isSafe]
  | error m => simp [hs, L3.isSafe]

/-- **Which service is asked.** The service that `IsSafe` reads is the one that the
configuration names, the testbed starts and shuts down last, exactly when its
name is "safety"; and so with what it reports. -/
theorem asks_configured_iff (t : Testbed) (listed : List ServiceId) (e : ServiceId × ServiceConfig)
    (he : e ∈ t.config.services) (hs : e.2.requires_safety = some true) :
    ((∃ safety, t.config.safety = some safety ∧ t.StartsAndOutlives listed e.1 safety ∧
        t.asked = .ok safety) ↔ t.config.safety = some (ascii "safety")) ∧
      ((∃ safety, t.config.safety = some safety ∧ ∀ is_safe now,
        L3.isSafe true (is_safe safety) now = true → t.isSafe is_safe e.2 now = true) ↔
          t.config.safety = some (ascii "safety")) := by
  obtain ⟨safety, hc, hid⟩ := t.safety_of_required he hs
  have hasked : safety = ascii "safety" → t.asked = .ok safety := by
    rintro rfl
    exact if_pos hid
  refine ⟨⟨?_, fun hname => ?_⟩, ⟨?_, fun hname => ?_⟩⟩
  · rintro ⟨s, hcs, -, hread⟩
    unfold asked getService at hread
    split at hread
    · cases hread
      exact hcs
    · cases hread
  · have hsafety : safety = ascii "safety" := Option.some.inj (hc.symm.trans hname)
    exact ⟨safety, hc, t.startsAndOutlives_of_safety listed he hs hc, hasked hsafety⟩
  · rintro ⟨s, hcs, hreports⟩
    by_contra hname
    obtain ⟨is_safe, now, hsafe, hunsafe⟩ := t.not_asked_other (show s ≠ ascii "safety" from fun h => hname (h ▸ hcs)) hs
    rw [hreports is_safe now hsafe] at hunsafe
    cases hunsafe
  · have hsafety : safety = ascii "safety" := Option.some.inj (hc.symm.trans hname)
    refine ⟨safety, hc, fun is_safe now hsafe => ?_⟩
    rw [t.isSafe_of_asked hs (hasked hsafety)]
    exact hsafe

/-! ## A deformable mirror under a safety monitor of another name -/

theorem asks_configured_iff_mirror : ∃ safety, mirrorTestbed.config.safety = some safety ∧
    mirrorTestbed.StartsAndOutlives [] dmId safety ∧ mirrorTestbed.asked = .ok safety :=
  (asks_configured_iff mirrorTestbed [] (dmId, ⟨ascii "bmc_dm", none, [], some true⟩)
    (List.mem_cons_of_mem _ List.mem_cons_self) rfl).1.mpr rfl

def monitorId : ServiceId := ascii "safety_monitor"

def renamedConfig : TestbedConfig where
  services := [(monitorId, ⟨ascii "safety_monitor", none, [], some false⟩),
    (dmId, ⟨ascii "bmc_dm", none, [], some true⟩)]
  safety := some monitorId
  service_paths := []
  isSimulated := false

def renamedTestbed : Testbed := ⟨renamedConfig, by decide, _, rfl⟩

/-- **The counterexample.** The configuration is accepted, and the mirror asks for a
service that does not exist. -/
theorem missing_service_asked : ¬ ∀ (t : Testbed) (listed : List ServiceId) (e : ServiceId × ServiceConfig),
    e ∈ t.config.services → e.2.requires_safety = some true →
      ∃ safety, t.config.safety = some safety ∧ t.StartsAndOutlives listed e.1 safety ∧
        t.asked = .ok safety := by
  intro h
  obtain ⟨safety, -, -, hasked⟩ := h renamedTestbed [] (dmId, ⟨ascii "bmc_dm", none, [], some true⟩)
    (List.mem_cons_of_mem _ List.mem_cons_self) rfl
  have hmissing : ascii "safety" ∉ renamedTestbed.ids := by decide
  rw [asked, getService, if_neg hmissing] at hasked
  cases hasked

end Testbed

end Catkit2.L4
