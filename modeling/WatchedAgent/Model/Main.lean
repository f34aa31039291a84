import WatchedAgent.Lib.JsonPath
import WatchedAgent.Model.AgentLog
import WatchedAgent.Model.Config
import WatchedAgent.Model.Startup

/-!
# `WatchedAgent.Model.Main`: the configuration of a started agent

`main` of `src/agent.cpp` up to `cfg->save()`. `Config::Config` loads the document, and then the
server, the log, the detectors and the collectors get pointers into it. Their constructors fill in
what is missing and read values, and which of them there are depends on the directories that the
document names. A constructor is a list of steps on the document, and `cfg` is the path of its
pointer.

Reading a member with `operator[]` makes it `null` where it is missing. An exception is caught
nowhere, so then nothing is saved.
-/

set_option autoImplicit false

namespace WatchedAgent.Model

open WatchedAgent.Lib (Json)
open WatchedAgent.Lib.Json (Path)

namespace Main

/-! ### Values -/

/-- `asString()`. -/
def asString : Json → Option String
  | .null => some ""
  | .str s => some s
  | .bool b => some (if b then "true" else "false")
  | .int n => some (toString n)
  | .real digits => some digits
  | _ => none

/-- Does `asBool()` give a value? -/
def isBool : Json → Bool
  | .null | .bool _ | .int _ | .real _ => true
  | _ => false

/-- The numbers that are no integers: is one in the range of an `int`, and of a `uint`? -/
structure Reals where
  inInt : String → Bool
  inUInt : String → Bool

/-- Does `asInt()` give a value? -/
def isInt (reals : Reals) : Json → Bool
  | .null | .bool _ => true
  | .int n => -0x80000000 ≤ n ∧ n < 0x80000000
  | .real digits => reals.inInt digits
  | _ => false

/-- Does `asUInt()` give a value? -/
def isUInt (reals : Reals) : Json → Bool
  | .null | .bool _ => true
  | .int n => 0 ≤ n ∧ n < 0x100000000
  | .real digits => reals.inUInt digits
  | _ => false

/-! ### Steps -/

/-- What a constructor does to the document. -/
inductive Step where
  /-- A block of `Config::Config`. -/
  | block (b : Config.Block)
  /-- `if(! cfg->isMember(key)) (*cfg)[key] = value`. -/
  | default (cfg : Path) (key : String) (value : Json)
  /-- `(*cfg)[key].asString()` and the like, with the values that do not throw. -/
  | read (cfg : Path) (key : String) (ok : Json → Bool)
  /-- `(*cfg)["level"] = levels[level]`. -/
  | level (cfg : Path)

/-- A step on the document. -/
def Step.run (data : Json) : Step → Option Json
  | .block b => b.run data
  | .default cfg key value => do
      if ← (← data.getAt cfg).isMember key then return data
      else data.setAt (cfg ++ [key]) value
  | .read cfg key ok => do
      let value ← data.getAt (cfg ++ [key])
      if ok value then data.setAt (cfg ++ [key]) value else none
  | .level cfg => do
      let lvl ← asString (← data.getAt (cfg ++ ["level"]))
      data.setAt (cfg ++ ["level"])
        (.str (AgentLog.levels[AgentLog.findLevel lvl]?.getD ""))

/-- The steps of a constructor, one after the other. -/
def runAll (steps : List Step) (data : Json) : Option Json := steps.foldlM Step.run data

/-- A text is read. -/
def readString (cfg : Path) (key : String) : Step := .read cfg key (fun v => (asString v).isSome)

/-! ### The server and the log -/

/-- `Config::getLog`. -/
def getLog : List Step := [.default [] "log" (.obj [])]

/-- `log::log`. -/
def log (logFile : String) : List Step := [
  .default ["log"] "file" (.str logFile),
  readString ["log"] "file",
  .default ["log"] "level" (.str "NOTICE"),
  .level ["log"]]

/-- `HttpServer::HttpServer`, whose other reads are those of `default_resource`. -/
def httpServer (reals : Reals) (logFile : String) : List Step :=
  [.read ["server"] "port" (isInt reals), readString ["server"] "SSL_key",
    readString ["server"] "SSL_cert", readString ["server"] "SSL_verify",
    .read ["server"] "useSSL" isBool]
    ++ log logFile ++ [readString ["server"] "host"]

/-! ### Detectors -/

/-- `servicesManager::getDetectorCfg`. Without the member `detectors` there is none below it. -/
def getDetectorCfg (name : String) : List Step :=
  [.default ["services", "detectors"] name (.obj [])]

/-- `serviceDetector::serviceDetector`, which is all that a `LuaDetector` does. -/
def serviceDetector (cfg : Path) : List Step := [.default cfg "enable" (.bool true)]

/-- The `blackList` of `socketDetector`. -/
def socketBlackList : Json := .arr [
  .obj [("interface", .str "loopback")],
  .obj [("path", .str "/sbin/dhclient")],
  .obj [("path", .str "/usr/sbin/avahi-daemon")],
  .obj [("path", .str "/sbin/rpc.statd")],
  .obj [("path", .str "/sbin/rpcbind")],
  .obj [("name", .str "cups-browsed")]]

/-- `socketDetector::socketDetector`. -/
def socketDetector (cfg : Path) : List Step :=
  serviceDetector cfg ++ [.default cfg "blackList" socketBlackList]

/-- The `whiteList` of `systemdDetector`. -/
def systemdWhiteList : Json := .arr [
  .obj [("unit-name", .str "rsyslog_2eservice")],
  .obj [("unit-name", .str "watched_2eback_2eservice")],
  .obj [("type", .str "forking")],
  .obj [("type", .str "simple")],
  .obj [("type", .str "dbus")],
  .obj [("type", .str "notify"), ("restart", .str "on-failure")]]

/-- The `blackList` of `systemdDetector`. -/
def systemdBlackList : Json := .arr [
  .obj [("type", .str "dbus"), ("restart", .str "no")],
  .obj [("unit-name", .str "systemd_2d.*_2eservice")]]

/-- `systemdDetector::systemdDetector`. -/
def systemdDetector (cfg : Path) : List Step :=
  serviceDetector cfg ++ [.default cfg "whiteList" systemdWhiteList,
    .default cfg "blackList" systemdBlackList]

/-- A detector with its member of the configuration. -/
def withDetectorCfg (name : String) (ctor : Path → List Step) : List Step :=
  getDetectorCfg name ++ ctor ["services", "detectors", name]

/-! ### Collectors -/

/-- `Config::getCollector`. -/
def getCollector (name : String) : List Step := [.default ["collectors"] name (.obj [])]

/-- `Collector::Collector`, where a number of 0 sets no default. -/
def collector (cfg : Path) (p_history p_freq_pool : Nat) : List Step :=
  (if 0 < p_history then [.default cfg "history" (.int p_history)] else [])
    ++ (if 0 < p_freq_pool then [.default cfg "poll-frequency" (.int p_freq_pool)] else [])
    ++ [.default cfg "enable" (.bool true)]

/-- The numbers of the configuration that the constructor reads for its ressources. -/
structure CtorReads where
  history : Bool := false
  pollFrequency : Bool := false

/-- `(*cfg)["history"].asUInt()` and `(*cfg)["poll-frequency"].asUInt()`. -/
def CtorReads.steps (reals : Reals) (cfg : Path) (r : CtorReads) : List Step :=
  (if r.history then [.read cfg "history" (isUInt reals)] else [])
    ++ (if r.pollFrequency then [.read cfg "poll-frequency" (isUInt reals)] else [])

/-- The arguments that the constructors of `collectors/*.cpp` give to `Collector`. -/
def defaultsOf (name : String) : Nat × Nat :=
  if name = "cpuload" ∨ name = "memory" then (150, 10)
  else if name = "diskusage" ∨ name = "uptime" then (25, 60)
  else (300, 5)

/-- A script of a collector: its table `cfg`, and what `declare` needs. -/
structure Script where
  history : Int
  poolfreq : Int
  reads : CtorReads

/-- `LuaCollector::LuaCollector`. -/
def luaCollector (reals : Reals) (cfg : Path) (script : Script) : List Step :=
  collector cfg 0 0 ++ [.default cfg "history" (.int script.history),
    .default cfg "poll-frequency" (.int script.poolfreq)] ++ script.reads.steps reals cfg

/-! ### The agent -/

/-- What the agent finds on its host. `hasSystemd` says which libraries hold the systemd
detector, and `reads` what the constructor of a collector of a library reads. -/
structure Host where
  plugins : Startup.Plugins
  readdir : String → Option (List Dirent)
  hasSystemd : String → Bool
  reads : String → CtorReads
  script : String → Script
  reals : Reals

/-- The texts of the directories are read. -/
def directoryReads : List Step := [
  readString ["services"] "config_dir",
  readString ["plugins"] "services_cpp",
  readString ["plugins"] "services_lua",
  readString ["plugins"] "collectors_cpp",
  readString ["plugins"] "collectors_lua"]

/-- The text at a path. -/
def textAt (data : Json) (path : Path) : String :=
  (((data.at? path).bind asString).getD "")

/-- The directories that the document names. -/
def Host.directories (host : Host) (data : Json) : Startup.Directories where
  config_dir := host.readdir (textAt data ["services", "config_dir"])
  services_cpp := host.readdir (textAt data ["plugins", "services_cpp"])
  services_lua := host.readdir (textAt data ["plugins", "services_lua"])
  collectors_cpp := host.readdir (textAt data ["plugins", "collectors_cpp"])
  collectors_lua := host.readdir (textAt data ["plugins", "collectors_lua"])

/-- The constructors of the detectors. -/
def detectors (host : Host) (s : Startup.Services) : List Step :=
  (if s.libraries.any host.hasSystemd then withDetectorCfg "systemd" systemdDetector else [])
    ++ s.detectors.flatMap (fun file => withDetectorCfg (Startup.stem file) serviceDetector)
    ++ withDetectorCfg "socket" socketDetector

/-- The constructors of the collectors of the system. -/
def collectors (host : Host) (libraries : List String) (c : Startup.Collectors) : List Step :=
  (Startup.collectorFactory host.plugins (libraries ++ c.libraries)).flatMap (fun name =>
      getCollector name
        ++ collector ["collectors", name] (defaultsOf name).1 (defaultsOf name).2
        ++ (host.reads name).steps host.reals ["collectors", name])
    ++ c.scripts.flatMap (fun file =>
      getCollector (Startup.stem file)
        ++ luaCollector host.reals ["collectors", Startup.stem file] (host.script file))

/-- What the agent reads before the directories are. -/
def beforeDirectories (host : Host) (logFile : String) : List Step :=
  getLog ++ httpServer host.reals logFile ++ directoryReads

/-- The document of an agent that has been started. -/
def start (w : Install) (logFile : String) (host : Host) (file : Option Json) : Option Json := do
  let data ← Config.load w file
  let data ← runAll (beforeDirectories host logFile) data
  let loaded ← Startup.init host.plugins (host.directories data)
  runAll (detectors host loaded.1 ++ collectors host loaded.1.libraries loaded.2) data

/-- The plugins that a start finds. -/
def found (w : Install) (logFile : String) (host : Host) (file : Option Json) :
    Option (Startup.Services × Startup.Collectors) := do
  let data ← Config.load w file
  let data ← runAll (beforeDirectories host logFile) data
  Startup.init host.plugins (host.directories data)

/-- The file after a start. -/
def startAndSave (w : Install) (logFile : String) (host : Host) (writable : Bool)
    (file : Option Json) : Option (Option Json) :=
  (start w logFile host file).map (Config.save writable file)

end Main

end WatchedAgent.Model
