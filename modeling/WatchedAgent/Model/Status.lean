import WatchedAgent.Model.Systemd

/-!
# `WatchedAgent.Model.Status`: the status documents

`service::getJsonStatus` and the requests that publish it. The function changes the
service: it asks the handler when something failed, and the handler may add a process.
It also fills the name caches of the processes. An exception of the handler ends the
request, and is `none` here.
-/

set_option autoImplicit false

namespace WatchedAgent.Model

open WatchedAgent.Lib

/-- An element of the `sockets` member. -/
structure SocketStatus where
  name : String
  status : String
  deriving DecidableEq

/-- An element of the `process` member. The last three fields are there for a running
process only. -/
structure ProcessStatus where
  name : String
  fullPath : String
  status : String
  pid : Option Nat := none
  cwd : Option String := none
  username : Option String := none
  deriving DecidableEq

/-- An element of the `subprocess` member. -/
structure SubprocessStatus where
  name : String
  fullPath : String
  pid : Nat
  cwd : String
  username : String
  deriving DecidableEq

/-- The document of `getJsonStatus`. An element of `subprocess` that was never written is
`null`. -/
structure StatusDoc where
  sockets : List SocketStatus := []
  process : List ProcessStatus := []
  subprocess : List (Option SubprocessStatus) := []
  host : String := ""
  name : String := ""
  type : String := ""
  subType : String := ""
  uniqName : String := ""
  deriving DecidableEq

namespace Service

/-- The text for an entry that failed. -/
def failedText (isBlackout : Bool) : String := if isBlackout then "ok (blackout)" else "failed"

/-- Does a socket or a main process of the service fail? -/
def failed (os : OsState) (s : Service) : Bool :=
  s.sockets.any (fun i => !s.haveSocket os i.id) || s.mainProcess.any (fun i => !i.getStatus os)

/-- The first part of `getJsonStatus`: the handler is asked when something failed. -/
def askHandler (env : Env) (os : OsState) (s : Service) : Option (Service × Bool) :=
  match s.handler with
  | none => some (s, false)
  | some h => if s.failed os then h.isBlackout env os s else some (s, false)

/-- The element of a socket. -/
def socketStatus (os : OsState) (s : Service) (isBlackout : Bool) (i : Socket) :
    SocketStatus where
  name := i.getSource
  status := if s.haveSocket os i.id then "ok" else failedText isBlackout

/-- The process after its names were asked for, with its directory and user. -/
def withNames (os : OsState) (p : Process) : Process × String × String :=
  let (p, cwd) := p.getCWD os
  let (p, username) := p.getUsername os
  (p, cwd, username)

/-- The element of a main process. -/
def processStatus (os : OsState) (isBlackout : Bool) (p : Process) : ProcessStatus :=
  if p.getStatus os then
    let (_, cwd, username) := withNames os p
    { name := p.baseName, fullPath := p.fullPath, status := "ok", pid := some p.pid,
      cwd := some cwd, username := some username }
  else { name := p.baseName, fullPath := p.fullPath, status := failedText isBlackout }

/-- The element of a subprocess, which is written for a running process only. -/
def subprocessStatus (os : OsState) (p : Process) : Option SubprocessStatus :=
  if p.getStatus os then
    let (_, cwd, username) := withNames os p
    some { name := p.baseName, fullPath := p.fullPath, pid := p.pid, cwd, username }
  else none

/-- The caches after the document was built: running processes were asked for their
names. -/
def cacheNames (os : OsState) (p : Process) : Process :=
  if p.getStatus os then (withNames os p).1 else p

/-- `service::getJsonStatus` on an empty object: the service afterwards, and the document.
Writing element `n` of an array extends it with nulls, so the nulls after the last running
subprocess are missing. -/
def getJsonStatus (env : Env) (os : OsState) (s : Service) : Option (Service × StatusDoc) := do
  let (s, isBlackout) ← s.askHandler env os
  let doc : StatusDoc := {
    sockets := s.sockets.map (s.socketStatus os isBlackout)
    process := s.mainProcess.map (processStatus os isBlackout)
    subprocess := (s.subProcess.map (subprocessStatus os)).reverse.dropWhile Option.isNone
      |>.reverse
    host := s.host
    name := s.name
    type := s.type
    subType := s.subType
    uniqName := s.uniqName }
  return ({ s with
    mainProcess := s.mainProcess.map (cacheNames os)
    subProcess := s.subProcess.map (cacheNames os) }, doc)

end Service

namespace ServicesManager

/-- The status request on the `j`-th service: its `getJsonStatus`, run in place. -/
def statusOf (env : Env) (os : OsState) (m : ServicesManager) (j : Nat) :
    Option (ServicesManager × StatusDoc) := do
  let s ← m.services[j]?
  let (s, doc) ← s.getJsonStatus env os
  return ({ m with services := m.services.set j s }, doc)

/-- `servicesManager::doGetServiceStatus` for an identifier other than `all`: the document
of the first service with that identifier, or the error text. The outer `none` is an
exception. -/
def doGetServiceStatus (env : Env) (os : OsState) (m : ServicesManager) (id : String) :
    Option (ServicesManager × Except String StatusDoc) :=
  match m.services.findIdx? (fun s => s.getID == id) with
  | none => some (m, .error ("No service matching '" ++ id ++ "' found"))
  | some j => (m.statusOf env os j).map (fun r => (r.1, .ok r.2))

/-- A member of a JSON object is set: an old value of the key goes. -/
def setMember {α : Type} (obj : List (String × α)) (key : String) (value : α) :
    List (String × α) :=
  obj.filter (fun e => e.1 != key) ++ [(key, value)]

/-- The loop of `doGetAllJson` over the services from the `j`-th on: the `status` members
of `res["services"]`. The key is read before the status. -/
def servicesJson (env : Env) (os : OsState) :
    Nat → Nat → ServicesManager → List (String × StatusDoc)
      → Option (ServicesManager × List (String × StatusDoc))
  | 0, _, m, obj => some (m, obj)
  | n + 1, j, m, obj => do
      -- The handler may give the service a name, but the key is read before.
      let key := ((m.services[j]?).map Service.getID).getD ""
      let (m, doc) ← m.statusOf env os j
      servicesJson env os n (j + 1) m (setMember obj key doc)

/-- `res["services"]` of `servicesManager::doGetAllJson`. -/
def doGetAllJson (env : Env) (os : OsState) (m : ServicesManager) :
    Option (ServicesManager × List (String × StatusDoc)) :=
  servicesJson env os m.services.length 0 m []

end ServicesManager

end WatchedAgent.Model
