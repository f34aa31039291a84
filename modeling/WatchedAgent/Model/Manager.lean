import WatchedAgent.Model.Service

/-!
# `WatchedAgent.Model.Manager`: the services manager

`servicesManager` of `src/servicesManager.cpp` keeps the list of services. `addService` is
the only place that adds one: it lets the enhancers improve the detected service, and then
merges it into the first stored service that equals it, or that misses one of its sockets,
or stores it as a new one.

The enhancers under `src/` are `LuaServiceEnhancer`, which hands the script a fixed set of
methods, and `systemdEnhancer`. Both work through setters and return no other service.
-/

set_option autoImplicit false

namespace WatchedAgent.Model

open WatchedAgent.Lib

/-- A call of an enhancer on the service it is given. `setCollectorCfg` is the trace that
`addCollector` leaves in the configuration. The collectors and the log parsers themselves
are in `Model.Monitored`. -/
inductive SetterCall where
  | setType (type : String)
  | setSubType (type : String)
  | setUniqKey (key : String)
  | setName (name : String)
  | setHost (host : String)
  | setHandlerObj (handler : Handler)
  | setCollectorCfg (name value : String)
  deriving DecidableEq

/-- The setter on the service. -/
def SetterCall.run : SetterCall → Service → Service
  | .setType type, s => { s with type }
  | .setSubType subType, s => { s with subType }
  | .setUniqKey uniqName, s => { s with uniqName }
  | .setName name, s => { s with name }
  | .setHost host, s => { s with host }
  | .setHandlerObj handler, s => { s with handler := some handler }
  | .setCollectorCfg name value, s =>
      { s with collectorsCfg := Service.setCollectorCfg s.collectorsCfg (name, value) }

/-- `serviceEnhancer`: a Lua script, which decides on its calls from the service, or the
systemd enhancer. -/
inductive Enhancer where
  | lua (script : Service → List SetterCall)
  | systemd

/-- `systemdEnhancer::enhance`. -/
def systemdEnhance (os : OsState) (s : Service) : Service :=
  if os.bus.haveBus = false then s
  else
    match s.getMainProcess with
    | none => s
    | some p =>
        -- A unit that ends in `service` gives the key, unless a handler is set.
        let name := os.bus.unitByPID p.pid
        if s.haveHandler = false ∧ name.length > 7
            ∧ "service".toList.isSuffixOf name.toList = true then
          { s with uniqName := name, handler := some (.systemd name) }
        else s

/-- `serviceEnhancer::enhance`: the service after the calls, and the service returned.
Neither class returns one. -/
def Enhancer.enhance (os : OsState) : Enhancer → Service → Service × Option Service
  | .lua script, s => ((script s).foldl (fun s call => call.run s) s, none)
  | .systemd, s => (systemdEnhance os s, none)

/-- An entry of the `blackList` of the socket detector. -/
structure SocketRule where
  interface : Option String := none
  path : Option String := none
  name : Option String := none
  deriving DecidableEq

/-- An entry of a list of the systemd detector. -/
structure UnitRule where
  unitName : Option String := none
  type : Option String := none
  restart : Option String := none
  deriving DecidableEq

/-- What the agent is set up with: the enhancers, the canonical host name, the lists of
the detectors, the answer of a Lua handler's `isBlackout`, and `std::regex_match`. -/
structure Env where
  enhancers : List Enhancer := []
  defaultHost : String := ""
  socketBlackList : List SocketRule := []
  systemdWhiteList : List UnitRule := []
  systemdBlackList : List UnitRule := []
  luaBlackout : String → Service → Bool := fun _ _ => false
  regexMatch : String → String → Bool := fun _ _ => false

/-- The state of `servicesManager`: the services, and the templates it has written to the
configuration directory. -/
structure ServicesManager where
  services : List Service := []
  templates : List (String × Service.Config) := []
  deriving DecidableEq

namespace ServicesManager

/-- `service::saveConfigTemplate`, on the directory of the manager. -/
def saveConfigTemplate (m : ServicesManager) (s : Service) : ServicesManager :=
  { m with
      templates := m.templates.filter (fun t => t.1 != s.templateName)
        ++ [(s.templateName, s.setDefaultConfig)] }

/-- The enhancers of `addService`, one after the other. -/
def enhance (env : Env) (os : OsState) (serv : Service) : Service :=
  env.enhancers.foldl (fun add e =>
    -- An enhancer may return another service, and then that one goes on.
    match e.enhance os add with
    | (_, some s) => s
    | (add, none) => add) serv

/-- `servicesManager::addService`. -/
def addService (env : Env) (os : OsState) (m : ServicesManager) (serv : Service) :
    ServicesManager :=
  let add := enhance env os serv
  -- The same name, type and sockets: the stored service takes over the changes.
  if m.services.any (fun i => add.equals i) then
    { m with
        services := modifyFirst (fun i => add.equals i) (fun i => i.updateFrom os add)
          m.services }
  -- One that lost a socket the new service has.
  else if m.services.any (fun i => i.needSocketFrom os add) then
    { m with
        services := modifyFirst (fun i => i.needSocketFrom os add)
          (fun i => i.updateFrom os add) m.services }
  else
    let m := m.saveConfigTemplate add
    { m with services := m.services ++ [add] }

/-- `servicesManager::havePID`. -/
def havePID (m : ServicesManager) (pid : Nat) : Bool := m.services.any (fun s => s.havePID pid)

/-- `servicesManager::getService`. -/
def getService (m : ServicesManager) (pid : Nat) : Option Service :=
  m.services.find? (fun s => s.havePID pid)

/-- `servicesManager::handleSubProcess`. -/
def handleSubProcess (os : OsState) (m : ServicesManager) (p : Process) : ServicesManager :=
  let ppid := p.getPPID os
  { m with
      services := modifyFirst (fun s => s.havePID ppid) (fun s => s.addSubProcess p)
        m.services }

end ServicesManager

end WatchedAgent.Model
