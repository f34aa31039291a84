import WatchedAgent.Model.Manager

/-!
# `WatchedAgent.Model.Systemd`: the systemd handler and detector

`services/sdbus/systemdbus.cpp`. The detector walks the units the bus lists, and makes a
service for each unit whose main process is not known. The handler tells an expected stop
from a failure, and learns the new main process of a restarted unit on the way.

Where the bus call for a string fails, the source builds a `std::string` from a null
pointer, which throws. That is `none` here.
-/

set_option autoImplicit false

namespace WatchedAgent.Model

open WatchedAgent.Lib

/-- `serviceHandler::isBlackout` on the service that owns the handler: the service
afterwards, and the answer. -/
def Handler.isBlackout (env : Env) (os : OsState) (s : Service) :
    Handler → Option (Service × Bool)
  | .lua file => some (s, env.luaBlackout file s)
  | .systemd id =>
      if os.bus.haveBus = false then some (s, false)
      else do
        let res ← os.bus.activeState id
        if res = "active" then
          -- restarted not yet known
          let pid := os.bus.execMainPID id
          if pid = 0 ∨ s.havePID pid = true then return (s, true)
          let p := Process.ofPid os pid
          if p.baseName = "" then return (s, true)
          return (s.updateMainProcess os p, true)
        -- An inactive unit was stopped on purpose, and anything else is a failure.
        else return (s, res == "inactive")

namespace SystemdDetector

/-- The `whiteList` the constructor writes where the configuration has none. -/
def defaultWhiteList : List UnitRule :=
  [{ unitName := some "rsyslog_2eservice" }, { unitName := some "watched_2eback_2eservice" },
    { type := some "forking" }, { type := some "simple" }, { type := some "dbus" },
    { type := some "notify", restart := some "on-failure" }]

/-- The `blackList` the constructor writes where the configuration has none. -/
def defaultBlackList : List UnitRule :=
  [{ type := some "dbus", restart := some "no" },
    { unitName := some "systemd_2d.*_2eservice" }]

/-- The object path of a unit. -/
def objectPath (small : String) : String := "/org/freedesktop/systemd1/unit/" ++ small

/-- One entry of `systemdDetector::matchList`: a later criterion overrides an earlier. -/
def ruleMatches (env : Env) (small type restart : String) (rule : UnitRule) : Bool :=
  let matched := match rule.unitName with
    | some pattern => env.regexMatch pattern small
    | none => false
  let matched := match rule.type with
    | some t => type == t
    | none => matched
  match rule.restart with
    | some r => restart == r
    | none => matched

/-- `systemdDetector::matchList`. -/
def matchList (env : Env) (os : OsState) (small : String) (rules : List UnitRule) :
    Option Bool := do
  let type ← os.bus.type (objectPath small)
  let restart ← os.bus.restart (objectPath small)
  return rules.any (ruleMatches env small type restart)

/-- The text between the first and the last double quote of a line. -/
def quoted (line : String) : String :=
  match Text.find line '"' 0, Text.rfind line '"' with
  | some i, some j =>
      if i < j then String.ofList ((line.toList.drop (i + 1)).take (j - i - 1))
      else String.ofList (line.toList.drop (i + 1))
  | _, _ => line

/-- The unit a line of the introspection names, if it names a service. -/
def unitOfLine (line : String) : Option String :=
  if (line.toList.drop 1).take 5 = "<node".toList ∧ Text.contains line "service" = true then
    some (quoted line)
  else none

/-- The service made for a unit. -/
def newService (env : Env) (os : OsState) (small : String) (p : Process) : Service :=
  let serv := { Service.new env.defaultHost with uniqName := small }
  { serv.addMainProcess os p with handler := some (.systemd (objectPath small)) }

/-- Does the detector take the unit: it runs, and the lists let it pass? `none` when a bus
call throws. -/
def accepts (env : Env) (os : OsState) (small : String) : Option Bool := do
  if os.bus.execMainPID (objectPath small) = 0 then return false
  let status ← os.bus.subState (objectPath small)
  if status = "exited" ∨ status = "dead" ∨ status = "" then return false
  if (← matchList env os small env.systemdWhiteList) = false then return false
  return !(← matchList env os small env.systemdBlackList)

/-- The unit's turn of the loop, once it is accepted. -/
def addUnit (env : Env) (os : OsState) (m : ServicesManager) (small : String) :
    ServicesManager :=
  let pid := os.bus.execMainPID (objectPath small)
  if m.havePID pid then
    -- The process is known already: its service gets the handler of the unit.
    let attach (s : Service) : Service :=
      if s.haveHandler then s else { s with handler := some (.systemd (objectPath small)) }
    { m with services := modifyFirst (fun s => s.havePID pid) attach m.services }
  else
    let p := Process.ofPid os pid
    if p.baseName = "" then m
    else m.addService env os (newService env os small p)

/-- The loop of `systemdDetector::find`. An exception ends it: a failed bus call, or the
`substr` of an empty line. -/
def walk (env : Env) (os : OsState) (m : ServicesManager) : List String → ServicesManager
  | [] => m
  | line :: lines =>
      if line = "" then m
      else
        match unitOfLine line with
        | none => walk env os m lines
        | some small =>
            match accepts env os small with
            | none => m
            | some false => walk env os m lines
            | some true => walk env os (addUnit env os m small) lines

/-- `systemdDetector::find`. -/
def find (env : Env) (os : OsState) (m : ServicesManager) : ServicesManager :=
  if os.bus.haveBus = false then m else walk env os m os.bus.introspect

end SystemdDetector

end WatchedAgent.Model
