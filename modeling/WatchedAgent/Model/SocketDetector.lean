import WatchedAgent.Model.Manager

/-!
# `WatchedAgent.Model.SocketDetector`: the socket detector

`socketDetector::find` of `src/servicesManager.cpp`. A pass first scans the four files of
`/proc/net` for listening sockets. Then it walks `/proc` and visits each process once:

* a known process reads its descriptors again, and its service gets the scanned sockets
  that one of its main processes holds;
* the child of a known process becomes a subprocess;
* any other process, if it is not black-listed and holds a scanned socket, becomes a new
  service, which goes to `addService`.

`visit` is one turn of the walk. A pass sees one moment of the system.
-/

set_option autoImplicit false

namespace WatchedAgent.Model

open WatchedAgent.Lib

/-- One entry of `socketDetector::matchList`: a later criterion overrides an earlier. -/
def SocketRule.matches (rule : SocketRule) (p : Process) : Bool :=
  let matched := match rule.path with
    | some path => p.fullPath == path
    | none => false
  match rule.name with
    | some name => p.baseName == name
    | none => matched

/-- `socketDetector::matchList`. -/
def matchList (p : Process) (rules : List SocketRule) : Bool :=
  rules.any (fun rule => rule.matches p)

namespace SocketDetector

/-- The `blackList` the constructor writes where the configuration has none. -/
def defaultBlackList : List SocketRule :=
  [{ interface := some "loopback" }, { path := some "/sbin/dhclient" },
    { path := some "/usr/sbin/avahi-daemon" }, { path := some "/sbin/rpc.statd" },
    { path := some "/sbin/rpcbind" }, { name := some "cups-browsed" }]

/-- The files of `/proc/net`, in the order of the map. -/
def files : List String := ["tcp", "tcp6", "udp", "udp6"]

/-- The socket of a line, when the scan keeps it. The outer `none` is an exception, or a
line with fewer words than the kernel writes. -/
def scanLine (ignoreLoopback : Bool) (type line : String) : Option (Option Socket) := do
  let state ← (Text.tokens line)[3]?
  -- 0A is LISTEN, and 07 is what an unconnected UDP socket shows.
  if state ≠ "0A" ∧ "tcp".toList.isPrefixOf type.toList = true then return none
  else if state ≠ "07" ∧ "udp".toList.isPrefixOf type.toList = true then return none
  else
    let s ← Socket.ofLine line type
    if ignoreLoopback ∧ s.isLoopBack = true then return none else return some s

/-- The sockets the scan keeps, in order. `none` when it throws. -/
def scan (env : Env) (os : OsState) : Option (List Socket) := do
  let ignoreLoopback := env.socketBlackList.any (fun rule => rule.interface == some "loopback")
  let kept ← files.mapM (fun type => (os.net type).mapM (scanLine ignoreLoopback type))
  return (kept.map (fun l => l.filterMap id)).flatten

/-- The inner loop: the scanned sockets that a main process of the service holds are set. -/
def associate (os : OsState) (socks : List Socket) (serv : Service) : Service :=
  socks.foldl (fun s i => if s.haveSocket os i.id then s.setSocket i else s) serv

/-- The branch for a process already associated to a service. -/
def updateKnown (os : OsState) (socks : List Socket) (pid : Nat) (serv : Service) : Service :=
  associate os socks (serv.setSocketsOf os pid)

/-- The service created for the process `p` and the socket `it`. -/
def newService (env : Env) (os : OsState) (socks : List Socket) (p : Process) (it : Socket) :
    Service :=
  associate os socks (((Service.new env.defaultHost).setSocket it).addMainProcess os p)

/-- One turn of the walk over `/proc`. -/
def visit (env : Env) (os : OsState) (socks : List Socket) (m : ServicesManager) (pid : Nat) :
    ServicesManager :=
  if m.havePID pid then
    -- already associated to a service
    let m := { m with
      services := modifyFirst (fun s => s.havePID pid) (updateKnown os socks pid) m.services }
    match m.getService pid with
    | none => m
    | some serv => m.saveConfigTemplate serv
  else
    let p := Process.ofPid os pid
    -- The child of a known process, whatever sockets it holds.
    if m.havePID (p.getPPID os) then m.handleSubProcess os p
    else if matchList p env.socketBlackList then m
    else
      let p := p.setSockets os
      match socks.find? (fun it => p.haveSocket it.id) with
      | none => m
      | some it => m.addService env os (newService env os socks p it)

/-- The walk over the PIDs of `/proc`. -/
def walk (env : Env) (os : OsState) (socks : List Socket) (m : ServicesManager)
    (pids : List Nat) : ServicesManager :=
  pids.foldl (visit env os socks) m

/-- `socketDetector::find`. -/
def find (env : Env) (os : OsState) (m : ServicesManager) : ServicesManager :=
  match scan env os with
  | none => m
  | some socks => if socks = [] then m else walk env os socks m os.pids

end SocketDetector

end WatchedAgent.Model
