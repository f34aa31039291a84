import WatchedAgent.Model.Monitored
import WatchedAgent.Proofs.ManagerOps

/-!
# `WatchedAgent.Proofs.Enhancement`: what the enhancers attach

The enhancers attach collectors and log parsers to the detected service, before
`addService` decides where the service goes.

* `toManager_addService`: without collectors and parsers, `addService` is the one of
  `Model.Manager`, with enhancers that make the setter calls only.
* `survives_iff`: what was attached is on the service afterwards, if and only if the service
  was stored as a new one, or the service it was merged into has it already.
* `not_survives_loaded`: a service of a configuration file has no collector, and a merge
  gives it none.
-/

set_option autoImplicit false

namespace WatchedAgent.Proofs

open WatchedAgent.Lib
open WatchedAgent.Model

namespace Enhancement

open WatchedAgent.Model.Monitored

variable (f : Factories) (os : OsState)

/-! ### Without collectors and parsers -/

/-- The setter calls that leave the same trace on the service as a call. -/
def trace (s : Monitored) : EnhancerCall → List SetterCall
  | .setter call => [call]
  | .addCollector name =>
      if name ∈ s.collectors ∨ name ∉ f.serviceCollectorFactory then []
      else [.setCollectorCfg name (f.collectorCfg name (s.collectorsCfg.lookup name))]
  | .addLogMonitor _ _ => []
  | .updateBasePaths => []

/-- The trace of a list of calls. -/
def traces : List EnhancerCall → Monitored → List SetterCall
  | [], _ => []
  | call :: calls, s => trace f s call ++ traces calls (call.run f os s)

theorem toService_addLogMonitor (logmonName filematch : String) (s : Monitored) :
    (s.addLogMonitor f os logmonName filematch).toService = s.toService := by
  unfold Monitored.addLogMonitor
  split
  · rfl
  · split
    · rfl
    · split <;> rfl

theorem toService_run (call : EnhancerCall) (s : Monitored) :
    (call.run f os s).toService
      = (trace f s call).foldl (fun t call => call.run t) s.toService := by
  cases call with
  | setter call => rfl
  | addCollector name =>
      have htrace : trace f s (.addCollector name)
          = if name ∈ s.collectors ∨ name ∉ f.serviceCollectorFactory then []
            else [.setCollectorCfg name (f.collectorCfg name (s.collectorsCfg.lookup name))] := rfl
      show (s.addCollector f name).toService = _
      unfold Monitored.addCollector
      rw [htrace]
      by_cases hadded : name ∈ s.collectors
      · rw [if_pos hadded, if_pos (.inl hadded)]
        rfl
      · by_cases hknown : name ∈ f.serviceCollectorFactory
        · rw [if_neg hadded, if_neg (by simpa using hknown), if_neg (by simp [hadded, hknown])]
          rfl
        · rw [if_neg hadded, if_pos hknown, if_pos (.inr hknown)]
          rfl
  | addLogMonitor logmonName filematch => exact toService_addLogMonitor f os _ _ s
  | updateBasePaths => rfl

theorem toService_foldl_run (calls : List EnhancerCall) (s : Monitored) :
    (calls.foldl (fun s call => call.run f os s) s).toService
      = (traces f os calls s).foldl (fun t call => call.run t) s.toService := by
  induction calls generalizing s with
  | nil => rfl
  | cons call calls ih => rw [List.foldl_cons, ih, traces, List.foldl_append, toService_run]

/-- Enhancers of plain services that do on `s` what the given ones do. -/
def plainEnhancers : List MonitoredEnhancer → Monitored → List Enhancer
  | [], _ => []
  | .lua script :: es, s =>
      .lua (fun _ => traces f os (script s) s)
        :: plainEnhancers es ((MonitoredEnhancer.lua script).enhance f os s)
  | .systemd :: es, s =>
      .systemd :: plainEnhancers es (MonitoredEnhancer.systemd.enhance f os s)

theorem enhance_plainEnhancers (es : List MonitoredEnhancer) (s : Monitored) :
    ServicesManager.enhance { enhancers := plainEnhancers f os es s } os s.toService
      = (MonitoredManager.enhance f es os s).toService := by
  induction es generalizing s with
  | nil => rfl
  | cons e es ih =>
      cases e with
      | lua script =>
          have hstep := ih ((MonitoredEnhancer.lua script).enhance f os s)
          have hrun := toService_foldl_run f os (script s) s
          rw [ServicesManager.enhance_cons _ _ _ os _ rfl]
          show ServicesManager.enhance _ os
            ((traces f os (script s) s).foldl (fun t call => call.run t) s.toService) = _
          rw [← hrun]
          exact hstep
      | systemd =>
          have hstep := ih (MonitoredEnhancer.systemd.enhance f os s)
          rw [ServicesManager.enhance_cons _ _ _ os _ rfl]
          exact hstep

/-! ### `addService` -/

variable (es : List MonitoredEnhancer) (m : MonitoredManager) (serv : Monitored)

/-- The service after the enhancers. -/
def enhanced : Monitored := MonitoredManager.enhance f es os serv

/-- The place of the stored service that `addService` merges into, if there is one. -/
def target : Option Nat := m.toManager.mergeTarget os (enhanced f os es serv).toService

/-- The three ways `addService` goes. -/
theorem addService_eq : m.addService f es os serv
    = if m.services.any (fun i => (enhanced f os es serv).equals i.toService) then
        { m with
            services := modifyFirst (fun i => (enhanced f os es serv).equals i.toService)
              (fun i => i.updateFrom os (enhanced f os es serv)) m.services }
      else if m.services.any (fun i => i.needSocketFrom os (enhanced f os es serv).toService) then
        { m with
            services := modifyFirst
              (fun i => i.needSocketFrom os (enhanced f os es serv).toService)
              (fun i => i.updateFrom os (enhanced f os es serv)) m.services }
      else
        { services := m.services ++ [enhanced f os es serv]
          templates := (m.toManager.saveConfigTemplate
            (enhanced f os es serv).toService).templates } := rfl

/-- `addService` updates the service at the target, or stores a new one. -/
theorem services_addService_monitored : (m.addService f es os serv).services
      = match target f os es m serv with
        | some k => m.services.modify k (fun i => i.updateFrom os (enhanced f os es serv))
        | none => m.services ++ [enhanced f os es serv] := by
  have hidx : ∀ p : Service → Bool,
      m.toManager.services.findIdx? p = m.services.findIdx? (fun i => p i.toService) :=
    fun p => List.findIdx?_map
  unfold target ServicesManager.mergeTarget
  rw [hidx, hidx, addService_eq]
  refine Eq.trans ?_ (modifyFirst_else_append _ _ _ _ _)
  split
  · rfl
  · split <;> rfl

/-- A merge of plain services, under the projection. -/
theorem map_modifyFirst_updateFrom (p : Service → Bool) (add : Monitored)
    (l : List Monitored) :
    (modifyFirst (fun i => p i.toService) (fun i => i.updateFrom os add) l).map Monitored.toService
      = modifyFirst p (fun i => i.updateFrom os add.toService) (l.map Monitored.toService) := by
  induction l with
  | nil => rfl
  | cons i l ih =>
      rw [List.map_cons, modifyFirst, modifyFirst]
      split
      · rfl
      · rw [List.map_cons, ih]

/-- Without collectors and parsers `addService` is that of plain services. -/
theorem toManager_addService : (m.addService f es os serv).toManager
    = m.toManager.addService { enhancers := plainEnhancers f os es serv } os serv.toService := by
  have hany : ∀ p : Service → Bool,
      m.toManager.services.any p = m.services.any (fun i => p i.toService) :=
    fun p => List.any_map
  have hmerge : ∀ p : Service → Bool,
      { m with
          services := modifyFirst (fun i => p i.toService)
            (fun i => i.updateFrom os (enhanced f os es serv)) m.services }.toManager
        = { m.toManager with
            services := modifyFirst p (fun i => i.updateFrom os (enhanced f os es serv).toService)
              m.toManager.services } := by
    intro p
    unfold MonitoredManager.toManager
    dsimp only
    rw [map_modifyFirst_updateFrom]
  rw [addService_eq]
  unfold ServicesManager.addService
  rw [enhance_plainEnhancers, ← enhanced]
  dsimp only
  rw [hany, hany]
  split
  · exact hmerge _
  · split
    · exact hmerge (fun i => i.needSocketFrom os (enhanced f os es serv).toService)
    · unfold MonitoredManager.toManager
      dsimp only
      rw [List.map_append, List.map_singleton]
      rfl

/-! ### What was attached -/

/-- The service has what the enhancers attached to the detected one. -/
structure HasAttached (t : Monitored) : Prop where
  collectors : ∀ c ∈ (enhanced f os es serv).collectors, c ∉ serv.collectors → c ∈ t.collectors
  parsers : ∀ fm ∈ (enhanced f os es serv).filematches, fm ∉ serv.filematches →
    fm ∈ t.filematches

/-- The stored service that has the processes of the detected one after `addService`: the one
merged into, or the new one at the end. -/
def holder : Option Monitored :=
  (m.addService f es os serv).services[(target f os es m serv).getD m.services.length]?

theorem holder_eq : holder f os es m serv
    = match target f os es m serv with
      | some k => m.services[k]?.map (fun i => i.updateFrom os (enhanced f os es serv))
      | none => some (enhanced f os es serv) := by
  unfold holder
  rw [services_addService_monitored]
  cases target f os es m serv with
  | some k =>
      dsimp only [Option.getD_some]
      exact List.getElem?_modify_eq _ k _
  | none => exact List.getElem?_concat_length

/-- A target is the place of a stored service. -/
theorem exists_of_target {k : Nat} (h : target f os es m serv = some k) :
    ∃ s, m.services[k]? = some s := by
  have hlt : k < m.toManager.services.length := by
    unfold target ServicesManager.mergeTarget at h
    rcases Option.or_eq_some_iff.mp h with h | ⟨-, h⟩
    · exact (List.findIdx?_eq_some_iff_getElem.mp h).1
    · exact (List.findIdx?_eq_some_iff_getElem.mp h).1
  unfold MonitoredManager.toManager at hlt
  rw [List.length_map] at hlt
  exact ⟨_, List.getElem?_eq_getElem hlt⟩

/-- The live processes of the detected service are in the holder. -/
theorem mem_pids_holder {p : Process} (hp : p ∈ serv.mainProcess)
    (halive : os.alive p.pid = true) :
    ∃ t, holder f os es m serv = some t ∧ p.pid ∈ t.pids := by
  have hmain : (enhanced f os es serv).mainProcess = serv.mainProcess := by
    rw [enhanced, ← enhance_plainEnhancers, ServicesManager.mainProcess_enhance]
  have hpid : p.pid ∈ (enhanced f os es serv).mainProcess.map Process.pid := by
    rw [hmain]
    exact List.mem_map_of_mem hp
  rw [holder_eq]
  cases htarget : target f os es m serv with
  | none => exact ⟨_, rfl, List.mem_append_left _ hpid⟩
  | some k =>
      obtain ⟨s, hs⟩ := exists_of_target f os es m serv htarget
      dsimp only
      rw [hs]
      refine ⟨_, rfl, ?_⟩
      exact Service.mem_pids_updateFrom_of_alive os _ _ halive (.inr hpid)

/-- After `addService` the holder has what the enhancers attached. -/
def Survives : Prop :=
  ∃ t, holder f os es m serv = some t ∧ HasAttached f os es serv t

/-- The enhancement survives exactly when the service is stored as a new one, or the service
it is merged into has the same collectors and parsers already. -/
theorem survives_iff : Survives f os es m serv
    ↔ ∀ k s, target f os es m serv = some k → m.services[k]? = some s →
        HasAttached f os es serv s := by
  unfold Survives
  rw [holder_eq]
  cases htarget : target f os es m serv with
  | none =>
      refine iff_of_true ⟨_, rfl, fun _ hc _ => hc, fun _ hm _ => hm⟩ ?_
      intro k s hk
      exact absurd hk (by simp)
  | some k =>
      obtain ⟨s, hs⟩ := exists_of_target f os es m serv htarget
      dsimp only
      rw [hs]
      constructor
      · rintro ⟨t, ht, hhas⟩ k' s' hk hs'
        obtain rfl : k = k' := Option.some.inj hk
        obtain rfl : s = s' := Option.some.inj (hs.symm.trans hs')
        obtain rfl := Option.some.inj ht
        -- A merge leaves the collectors and the parsers of the stored service alone.
        exact ⟨hhas.collectors, hhas.parsers⟩
      · intro h
        have hhas := h k s rfl hs
        exact ⟨_, rfl, hhas.collectors, hhas.parsers⟩

/-! ### A service of a configuration file -/

/-- A web server, with the PID 10. -/
def webServer : OsState :=
  OsState.ofProcs [(10, { exe := some "/usr/sbin/httpd", fd := some ["socket:[100]"] })]

/-- The service of its configuration file. -/
def configuredServer : Monitored :=
  { toService := (Service.ofConfig {} "" (fun _ => 0) {
      sockets := some ["tcp://0.0.0.0:80"], uniqName := some "web",
      process := some ["/usr/sbin/httpd"] }).getD {} }

/-- The service a detector makes. -/
def detectedServer : Monitored :=
  { toService := (Service.setSocket {} { id := 100, type := "tcp", source := { port := 80 } }
      ).addMainProcess webServer (Process.ofPid webServer 10) }

/-- A plugin that adds its collector to the web server. -/
def cpuPlugin : List MonitoredEnhancer :=
  [.lua (fun s => if s.name = "httpd" then [.addCollector "cpu"] else [])]

/-- The collector of a service that is in the configuration already is lost. -/
theorem not_survives_loaded : ¬ Survives { serviceCollectorFactory := ["cpu"] } webServer
    cpuPlugin { services := [configuredServer] } detectedServer := by
  rintro ⟨t, ht, hhas⟩
  have hcollectors : (holder { serviceCollectorFactory := ["cpu"] } webServer cpuPlugin
      { services := [configuredServer] } detectedServer).map (fun t => t.collectors)
        = some [] := by
    decide
  have hcpu := hhas.collectors "cpu" (by decide) (by decide)
  rw [ht, Option.map_some, Option.some.injEq] at hcollectors
  rw [hcollectors] at hcpu
  exact absurd hcpu List.not_mem_nil

end Enhancement

end WatchedAgent.Proofs
