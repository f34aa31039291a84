import WatchedAgent.Lib.Text

/-!
# `WatchedAgent.Model.Os`: what the agent reads from the system

The agent looks at the system through `/proc`, `readlink`, the password database and the
systemd bus. `OsState` is the answer of all of them at one moment. A function that reads
the system takes the moment it reads at as an argument.

`Snapshot` is a moment seen by a whole pass: the listing of `/proc` shows exactly the live
processes, and no process has PID 0.
-/

set_option autoImplicit false

namespace WatchedAgent.Model

open WatchedAgent.Lib

/-- The directory `/proc/<pid>` of a live process. A link that cannot be read is `none`,
and `fd` lists the links of `fd/` that can be read. -/
structure ProcEntry where
  exe : Option String := none
  stat : String := ""
  fd : Option (List String) := none
  cwd : Option String := none
  status : List String := []

/-- The answers of the systemd bus. `none` stands for a failed call where the source reads
a string. -/
structure Bus where
  haveBus : Bool := false
  introspect : List String := []
  execMainPID : String → Nat := fun _ => 0
  activeState : String → Option String := fun _ => none
  subState : String → Option String := fun _ => none
  type : String → Option String := fun _ => none
  restart : String → Option String := fun _ => none
  unitByPID : Nat → String := fun _ => ""

/-- The system at one moment. `names` lists `/proc` in the order of `readdir`, and `net`
gives the lines of `/proc/net/<type>`. -/
structure OsState where
  names : List String := []
  entry : Nat → Option ProcEntry := fun _ => none
  net : String → List String := fun _ => []
  passwd : Nat → Option String := fun _ => none
  bus : Bus := {}

namespace OsState

/-- The PIDs of the entries of `/proc` whose names are all digits, in `readdir` order. -/
def pids (os : OsState) : List Nat :=
  (os.names.filter (fun n => n.toList.all Text.isDigit)).map
    (fun n => Text.toUInt32 (Text.atoi n))

/-- Is there a directory `/proc/<pid>`? -/
def alive (os : OsState) (pid : Nat) : Bool := (os.entry pid).isSome

/-- The third field after the PID in `/proc/<pid>/stat`, counted in words. -/
def ppid (os : OsState) (pid : Nat) : Nat :=
  match os.entry pid with
  | none => 0
  | some e => Text.toUInt32 (Text.atoi ((Text.tokens e.stat)[3]?.getD ""))

end OsState

/-- A moment that lasts for a pass. -/
structure Snapshot extends OsState where
  mem_pids : ∀ pid, pid ∈ toOsState.pids ↔ toOsState.alive pid = true
  no_pid_zero : toOsState.alive 0 = false

/-- The same moment, with `/proc` listed in another order. -/
def Snapshot.relist (os : Snapshot) (names : List String)
    (h : ({ os.toOsState with names } : OsState).pids.Perm os.pids) : Snapshot where
  toOsState := { os.toOsState with names }
  mem_pids := fun pid => h.mem_iff.trans (os.mem_pids pid)
  no_pid_zero := os.no_pid_zero

/-- The part of a system that shows a list of processes, in the order of the list. -/
def OsState.ofProcs (procs : List (Nat × ProcEntry)) : OsState where
  names := procs.map (fun p => toString p.1)
  entry := fun pid => procs.lookup pid

/-- The snapshot of a list of processes, with the rest of the system as in `os`. -/
def Snapshot.ofProcs (procs : List (Nat × ProcEntry)) (os : OsState)
    (hpids : (OsState.ofProcs procs).pids = procs.map Prod.fst)
    (hzero : 0 ∉ procs.map Prod.fst) : Snapshot where
  toOsState := { os with
    names := (OsState.ofProcs procs).names
    entry := (OsState.ofProcs procs).entry }
  mem_pids := by
    have key : ∀ pid, (procs.lookup pid).isSome = true ↔ pid ∈ procs.map Prod.fst := by
      intro pid
      rw [List.lookup_isSome_iff]
      simp
    intro pid
    show pid ∈ (OsState.ofProcs procs).pids ↔ (procs.lookup pid).isSome = true
    rw [hpids, key]
  no_pid_zero := by
    show (procs.lookup 0).isSome = false
    rw [Option.isSome_eq_false_iff, Option.isNone_iff_eq_none, List.lookup_eq_none_iff]
    intro p hp
    rw [bne_iff_ne]
    intro hpid
    exact hzero (hpid ▸ List.mem_map_of_mem hp)

/-- A live process has a PID. -/
theorem Snapshot.ne_zero_of_alive (os : Snapshot) {pid : Nat} (h : os.alive pid = true) :
    pid ≠ 0 := by
  intro hzero
  rw [hzero, os.no_pid_zero] at h
  exact absurd h (by simp)

/-- A process without a `/proc` directory has parent PID 0. -/
theorem OsState.ppid_of_not_alive (os : OsState) (pid : Nat) (h : os.alive pid = false) :
    os.ppid pid = 0 := by
  have hnone : os.entry pid = none := by simpa [OsState.alive] using h
  simp [OsState.ppid, hnone]

end WatchedAgent.Model
