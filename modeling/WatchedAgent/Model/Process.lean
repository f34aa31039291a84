import WatchedAgent.Model.Os

/-!
# `WatchedAgent.Model.Process`: a recorded process

`process` of `include/services.h`. A process is built from a PID, and then its names come
from `/proc/<pid>/exe`, or from a path of a configuration file, and then its PID is 0. The
descriptor list and the two cached names change later, so they are part of the state.
-/

set_option autoImplicit false

namespace WatchedAgent.Model

open WatchedAgent.Lib

/-- `class process`. -/
structure Process where
  pid : Nat
  fullPath : String := ""
  baseName : String := ""
  username : String := ""
  cwd : String := ""
  sockets : List Nat := []
  deriving DecidableEq

namespace Process

/-- The mark of an updated file: a path longer than nine characters that ends in
`(deleted)` loses its last ten characters. -/
def stripDeleted (path : String) : String :=
  if path.length > 9 ∧ "(deleted)".toList.isSuffixOf path.toList = true then
    String.ofList (path.toList.take (path.length - 10))
  else path

/-- `process::process(pid)`. The names stay empty when the link cannot be read. -/
def ofPid (os : OsState) (pid : Nat) : Process :=
  match (os.entry pid).bind ProcEntry.exe with
  | none => { pid }
  | some exe =>
      let path := stripDeleted exe
      { pid, fullPath := path, baseName := Text.basename path }

/-- `process::process(fullpath)`. -/
def ofPath (path : String) : Process :=
  { pid := 0, fullPath := path, baseName := Text.basename path }

/-- `process::getPPID`. -/
def getPPID (os : OsState) (p : Process) : Nat := os.ppid p.pid

/-- `process::getStatus`. -/
def getStatus (os : OsState) (p : Process) : Bool := os.alive p.pid

/-- `process::haveSocket`. -/
def haveSocket (p : Process) (id : Nat) : Bool := p.sockets.contains id

/-- The inode of a descriptor link, when the descriptor is a socket. -/
def socketOfLink (link : String) : Option Nat :=
  if "socket:[".toList.isPrefixOf link.toList then
    some (Text.toUInt32 (Text.atoi (String.ofList (link.toList.drop 8))))
  else none

/-- The socket inodes among the open descriptors of a process, or `none` when the
directory `fd/` cannot be opened. -/
def openSockets (os : OsState) (pid : Nat) : Option (List Nat) :=
  ((os.entry pid).bind ProcEntry.fd).map (fun links => links.filterMap socketOfLink)

/-- The inodes in the order they are met, each once. -/
def uniqueIds (ids : List Nat) : List Nat :=
  ids.foldl (fun l id => if l.contains id then l else l ++ [id]) []

/-- `process::setSockets`. A directory that cannot be opened leaves the list alone. -/
def setSockets (os : OsState) (p : Process) : Process :=
  match openSockets os p.pid with
  | none => p
  | some ids => { p with sockets := uniqueIds ids }

/-- `process::getCWD`: the process with its cache, and the directory. -/
def getCWD (os : OsState) (p : Process) : Process × String :=
  if p.cwd ≠ "" ∨ p.getStatus os = false then (p, p.cwd)
  else
    match (os.entry p.pid).bind ProcEntry.cwd with
    | none => (p, p.cwd)
    | some dir => ({ p with cwd := dir }, dir)

/-- The user id of the first `Uid:` line of `/proc/<pid>/status`. -/
def uidOf (lines : List String) : Option Nat :=
  (lines.map Text.tokens).findSome? (fun words =>
    if words[0]? = some "Uid:" then
      some (Text.toUInt32 (Text.atoi (words[1]?.getD "")))
    else none)

/-- `process::getUsername`: the process with its cache, and the name. A user id without a
password entry is not cached. -/
def getUsername (os : OsState) (p : Process) : Process × String :=
  if p.username ≠ "" ∨ p.getStatus os = false then (p, p.username)
  else
    match (os.entry p.pid).bind (fun e => uidOf e.status) with
    | none => (p, p.username)
    | some uid =>
        match os.passwd uid with
        | none => (p, toString uid)
        | some user => ({ p with username := user }, user)

/-! ### What the operations leave alone -/

@[simp]
theorem pid_ofPid (os : OsState) (pid : Nat) : (ofPid os pid).pid = pid := by
  unfold ofPid
  split <;> rfl

@[simp]
theorem pid_ofPath (path : String) : (ofPath path).pid = 0 := rfl

@[simp]
theorem sockets_ofPid (os : OsState) (pid : Nat) : (ofPid os pid).sockets = [] := by
  unfold ofPid
  split <;> rfl

@[simp]
theorem pid_setSockets (os : OsState) (p : Process) : (p.setSockets os).pid = p.pid := by
  unfold setSockets
  split <;> rfl

@[simp]
theorem mem_uniqueIds (ids : List Nat) (id : Nat) : id ∈ uniqueIds ids ↔ id ∈ ids := by
  -- Along the fold the list holds the inodes of `acc` and those met so far.
  have key : ∀ (ids acc : List Nat),
      id ∈ ids.foldl (fun l id => if l.contains id then l else l ++ [id]) acc
        ↔ id ∈ acc ∨ id ∈ ids := by
    intro ids
    induction ids with
    | nil => simp
    | cons i ids ih =>
        intro acc
        rw [List.foldl_cons, ih]
        by_cases hi : acc.contains i
        · -- Already there: the list stays, and `i` adds nothing.
          have hmem : i ∈ acc := by simpa using hi
          rw [if_pos hi, List.mem_cons]
          constructor
          · rintro (h | h)
            · exact .inl h
            · exact .inr (.inr h)
          · rintro (h | rfl | h)
            · exact .inl h
            · exact .inl hmem
            · exact .inr h
        · rw [if_neg hi, List.mem_append, List.mem_singleton, List.mem_cons, or_assoc]
  simpa [uniqueIds] using key ids []

/-- After `setSockets` a process has a socket exactly when it is among the open
descriptors, provided `fd/` can be opened. -/
theorem haveSocket_setSockets (os : OsState) (p : Process) (ids : List Nat)
    (h : openSockets os p.pid = some ids) (id : Nat) :
    (p.setSockets os).haveSocket id = true ↔ id ∈ ids := by
  unfold setSockets haveSocket
  rw [h, List.contains_iff_mem, mem_uniqueIds]

end Process

end WatchedAgent.Model
