import WatchedAgent.Model.Manager

/-!
# `WatchedAgent.Model.Monitored`: services with their collectors and log parsers

The maps `collectors` and `parsers` of `service`, with `addCollector` and `addLogMonitor` of
`src/services.cpp`, and `addService` on services that have them. A collector stands for the
key it is stored under, and a log parser for its key, its plugin and the file it reads.

`updateFrom` copies processes, sockets and the configuration of the collectors. What it
leaves for later in the source (`TODO: copy the collectors`) it leaves here too.
-/

set_option autoImplicit false

namespace WatchedAgent.Model

open WatchedAgent.Lib

/-- The log files a process has open: its descriptors outside `/dev/` whose path says `log`
and can be stated. `process::getOpenLogs`. -/
def Process.getOpenLogs (os : OsState) (stat : String → Bool) (p : Process) : List String :=
  (((os.entry p.pid).bind ProcEntry.fd).getD []).filter (fun link =>
    !"/dev/".toList.isPrefixOf link.toList && Text.contains link "log" && stat link)

/-- What the plugins registered, and what `addCollector` and `addLogMonitor` read beside the
service. `collectorCfg` is the configuration that the constructor of a collector leaves, from
the one it found. -/
structure Factories where
  serviceCollectorFactory : List String := []
  parserFactory : List String := []
  watched_log_file : String := ""
  stat : String → Bool := fun _ => false
  collectorCfg : String → Option String → String := fun _ cfg => cfg.getD "{}"

/-- An entry of the map `parsers`, under the file match. -/
structure LogMonitor where
  filematch : String
  logmonName : String
  logfile : String
  deriving DecidableEq

/-- `class service`, with its collectors and its log parsers. -/
structure Monitored extends Service where
  collectors : List String := []
  parsers : List LogMonitor := []
  deriving DecidableEq

namespace Monitored

/-- The keys of the map `parsers`. -/
def filematches (s : Monitored) : List String := s.parsers.map LogMonitor.filematch

/-- `service::addCollector`. -/
def addCollector (f : Factories) (name : String) (s : Monitored) : Monitored :=
  if name ∈ s.collectors then s -- already added
  else if name ∉ f.serviceCollectorFactory then s -- no factory matching this name
  else
    let cfg := f.collectorCfg name (s.collectorsCfg.lookup name)
    { s with
        collectors := s.collectors ++ [name]
        collectorsCfg := Service.setCollectorCfg s.collectorsCfg (name, cfg) }

/-- The file `addLogMonitor` finds for a file match: the agent's own log, else the first open
log of a main process that matches, else the file of that name. -/
def findLog (f : Factories) (os : OsState) (filematch : String) (s : Monitored) :
    Option String :=
  if filematch = "watched.agent" then some f.watched_log_file
  else
    let logs := s.mainProcess.flatMap (Process.getOpenLogs os f.stat)
    match logs.find? (fun log => Text.contains log filematch) with
    | some log => some log
    | none => if f.stat filematch then some filematch else none

/-- `service::addLogMonitor`. -/
def addLogMonitor (f : Factories) (os : OsState) (logmonName filematch : String)
    (s : Monitored) : Monitored :=
  if filematch ∈ s.filematches then s -- already added
  else if logmonName ∉ f.parserFactory then s -- no factory matching this name
  else
    match findLog f os filematch s with
    | none => s
    | some logfile => { s with parsers := s.parsers ++ [{ filematch, logmonName, logfile }] }

/-- A call of an enhancer. `updateBasePaths` changes the paths of the collectors only. -/
inductive EnhancerCall where
  | setter (call : SetterCall)
  | addCollector (name : String)
  | addLogMonitor (logmonName filematch : String)
  | updateBasePaths
  deriving DecidableEq

/-- The call on the service. -/
def EnhancerCall.run (f : Factories) (os : OsState) : EnhancerCall → Monitored → Monitored
  | .setter call, s => { s with toService := call.run s.toService }
  | .addCollector name, s => s.addCollector f name
  | .addLogMonitor logmonName filematch, s => s.addLogMonitor f os logmonName filematch
  | .updateBasePaths, s => s

/-- `serviceEnhancer`, on services with plugins. -/
inductive MonitoredEnhancer where
  | lua (script : Monitored → List EnhancerCall)
  | systemd

/-- `serviceEnhancer::enhance`. No enhancer of the agent returns another service. -/
def MonitoredEnhancer.enhance (f : Factories) (os : OsState) :
    MonitoredEnhancer → Monitored → Monitored
  | .lua script, s => (script s).foldl (fun s call => call.run f os s) s
  | .systemd, s => { s with toService := systemdEnhance os s.toService }

/-- `service::updateFrom`. -/
def updateFrom (os : OsState) (s src : Monitored) : Monitored :=
  { s with toService := s.toService.updateFrom os src.toService }

end Monitored

/-- The state of `servicesManager`, with the collectors and parsers of its services. -/
structure MonitoredManager where
  services : List Monitored := []
  templates : List (String × Service.Config) := []
  deriving DecidableEq

namespace MonitoredManager

/-- The manager without the collectors and the parsers. -/
def toManager (m : MonitoredManager) : ServicesManager where
  services := m.services.map Monitored.toService
  templates := m.templates

/-- The enhancers of `addService`, one after the other. -/
def enhance (f : Factories) (enhancers : List Monitored.MonitoredEnhancer) (os : OsState)
    (serv : Monitored) : Monitored :=
  enhancers.foldl (fun add e => e.enhance f os add) serv

/-- `servicesManager::addService`. -/
def addService (f : Factories) (enhancers : List Monitored.MonitoredEnhancer) (os : OsState)
    (m : MonitoredManager) (serv : Monitored) : MonitoredManager :=
  let add := enhance f enhancers os serv
  if m.services.any (fun i => add.equals i.toService) then
    { m with
        services := modifyFirst (fun i => add.equals i.toService) (fun i => i.updateFrom os add)
          m.services }
  else if m.services.any (fun i => i.needSocketFrom os add.toService) then
    { m with
        services := modifyFirst (fun i => i.needSocketFrom os add.toService)
          (fun i => i.updateFrom os add) m.services }
  else
    { services := m.services ++ [add]
      templates := (m.toManager.saveConfigTemplate add.toService).templates }

end MonitoredManager

end WatchedAgent.Model
