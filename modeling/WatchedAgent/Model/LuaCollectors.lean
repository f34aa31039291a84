import WatchedAgent.Lib.LuaPattern
import WatchedAgent.Model.ServiceCollectors

/-!
# `WatchedAgent.Model.LuaCollectors`: the collectors of a service as scripts

`collect` of `luaServices/cpu.lua`, `io.lua` and `mem.lua`. The tables of a script are kept
under the text of a PID, and so by the PID. `getPIDList` fills `pids` anew, so a pass goes
over the PIDs it is given. A number is the fraction it stands for.

`collect` is `none` where an error of Lua ends the pass: arithmetic on `nil`.
-/

set_option autoImplicit false

namespace WatchedAgent.Model

open WatchedAgent.Lib

/-- `if type(t[pid]) == "number" then res = res + v - t[pid] end`. -/
def luaGrow (old v : Option ℚ) (res : ℚ) : Option ℚ :=
  match old with
  | some o => v.map (fun v => res + v - o)
  | none => some res

/-- `res` and the growth of a number, if there is an old one. -/
def grown (old : Option ℚ) (v res : ℚ) : ℚ :=
  match old with
  | some o => res + v - o
  | none => res

theorem luaGrow_some (old : Option ℚ) (v res : ℚ) :
    luaGrow old (some v) res = some (grown old v res) := by
  cases old <;> rfl

/-! ### Processor time -/

/-- The globals of `cpu.lua`, with the newest samples of its two ressources. -/
structure LuaCpu where
  values : PidMap ℚ := fun _ => none
  users : PidMap ℚ := fun _ => none
  sys : PidMap ℚ := fun _ => none
  cusers : PidMap ℚ := fun _ => none
  csys : PidMap ℚ := fun _ => none
  prevTotalTime : ℚ := 0
  shed : Members := []
  stat : MembersOf (Option ℚ) := []

/-- The local variables of its `collect`. -/
structure LuaCpuLocals where
  sum : ℚ := 0
  process : ℚ := 0
  thread : ℚ := 0
  totalTime : ℚ := 0
  cpuCount : ℚ := 0
  resUsers : ℚ := 0
  resSys : ℚ := 0
  resCusers : ℚ := 0
  resCsys : ℚ := 0

namespace LuaCpu

/-- A line of `/proc/stat`. -/
def readCpuLine (l : LuaCpuLocals) (line : String) : Option LuaCpuLocals :=
  if Lua.luaMatch "(%a+%d*)" line = some "cpu" then do
    let add (t : ℚ) (part : String) : Option ℚ := (Text.tonumber part).map (t + ·)
    let totalTime ← (Lua.gmatch "%d+" line).foldlM add l.totalTime
    return { l with totalTime }
  else if Lua.luaMatch "(%a+)" line = some "cpu" then
    return { l with cpuCount := l.cpuCount + 1 }
  else return l

/-- A line of `/proc/<pid>/sched`. -/
def readSchedLine (pid : Nat) (c : LuaCpu × LuaCpuLocals) (line : String) :
    Option (LuaCpu × LuaCpuLocals) :=
  if Lua.luaMatch "(%a+.%a+_%a+_%a+)" line = some "se.sum_exec_runtime" then do
    let val := (Lua.luaMatch "(%d+.%d+)" line).bind Text.tonumber
    let sum ← luaGrow (c.1.values pid) val c.2.sum
    return ({ c.1 with values := Function.update c.1.values pid val }, { c.2 with sum })
  else if Lua.luaMatch "threads" line = some "threads" then do
    let n ← (Lua.luaMatch ".*: (%d+)" line).bind Text.tonumber
    return (c.1, { c.2 with thread := c.2.thread + n })
  else return c

/-- The `n`-th number of `/proc/<pid>/stat`. -/
def readStatPart (pid : Nat) (c : LuaCpu × LuaCpuLocals) (part : String × Nat) :
    Option (LuaCpu × LuaCpuLocals) :=
  let v := Text.tonumber part.1
  if part.2 = 14 then do
    let resUsers ← luaGrow (c.1.users pid) v c.2.resUsers
    return ({ c.1 with users := Function.update c.1.users pid v }, { c.2 with resUsers })
  else if part.2 = 15 then do
    let resSys ← luaGrow (c.1.sys pid) v c.2.resSys
    return ({ c.1 with sys := Function.update c.1.sys pid v }, { c.2 with resSys })
  else if part.2 = 16 then do
    let resCusers ← luaGrow (c.1.cusers pid) v c.2.resCusers
    return ({ c.1 with cusers := Function.update c.1.cusers pid v }, { c.2 with resCusers })
  else if part.2 = 17 then do
    let resCsys ← luaGrow (c.1.csys pid) v c.2.resCsys
    return ({ c.1 with csys := Function.update c.1.csys pid v }, { c.2 with resCsys })
  else return c

/-- The turn of a process. -/
def readProcess (files : Nat → ProcFiles) (c : LuaCpu × LuaCpuLocals) (pid : Nat) :
    Option (LuaCpu × LuaCpuLocals) := do
  let c ← match (files pid).sched with
    | none => some c
    | some sched => (linesOf sched).foldlM (readSchedLine pid) c
  -- The count starts at 3, so the PID is number 3.
  let parts := (Lua.gmatch "%d+" ((files pid).stat.getD "")).zipIdx 3
  let c ← parts.foldlM (readStatPart pid) c
  return (c.1, { c.2 with process := c.2.process + 1 })

/-- The samples made at the end of a pass. -/
def publish (c : LuaCpu) (l : LuaCpuLocals) : LuaCpu :=
  let d := l.totalTime - c.prevTotalTime
  { c with
    shed := c.shed
      |>.setProperty "exec_runtime" l.sum
      |>.setProperty "process" l.process
      |>.setProperty "thread" l.thread
    stat := c.stat
      |>.setProperty "user" (quotient (l.resUsers * 100 * l.cpuCount) d)
      |>.setProperty "system" (quotient (l.resSys * 100 * l.cpuCount) d)
      |>.setProperty "pct" (quotient ((l.resSys + l.resUsers) * 100 * l.cpuCount) d)
      |>.setProperty "cuser" (quotient (l.resCusers * 100 * l.cpuCount) d)
      |>.setProperty "csystem" (quotient (l.resCsys * 100 * l.cpuCount) d) }

/-- `collect`: the globals afterwards, and whether a sample was made. -/
def collect (c : LuaCpu) (pass : ProcPass) : Option (LuaCpu × Bool) := do
  let l ← (linesOf pass.cpuStat).foldlM readCpuLine {}
  let l := if l.cpuCount = 0 then { l with cpuCount := 1 } else l
  let (c, l) ← pass.pids.foldlM (readProcess pass.files) (c, l)
  if c.prevTotalTime ≠ 0 then
    return ({ c.publish l with prevTotalTime := l.totalTime }, true)
  else return ({ c with prevTotalTime := l.totalTime }, false)

end LuaCpu

/-! ### Input and output -/

/-- The globals of `io.lua`, with the newest sample of its ressource. -/
structure LuaIo where
  reads : PidMap ℚ := fun _ => none
  writes : PidMap ℚ := fun _ => none
  io : Members := []

/-- The local variables of its `collect`. -/
structure LuaIoLocals where
  resReads : ℚ := 0
  resWrites : ℚ := 0
  found : Bool := false

namespace LuaIo

/-- The properties `declare` declares. -/
def properties : List String := ["rd", "wt"]

/-- A line of `/proc/<pid>/io`. -/
def readIoLine (pid : Nat) (c : LuaIo × LuaIoLocals) (line : String) :
    Option (LuaIo × LuaIoLocals) :=
  let key := Lua.luaMatch "(%a+_%a+)" line
  let val := (Lua.luaMatch "(%d+)" line).bind Text.tonumber
  if key = some "read_bytes" then do
    let resReads ← luaGrow (c.1.reads pid) val c.2.resReads
    return ({ c.1 with reads := Function.update c.1.reads pid val },
      { c.2 with resReads, found := c.2.found || (c.1.reads pid).isSome })
  else if key = some "write_bytes" then do
    let resWrites ← luaGrow (c.1.writes pid) val c.2.resWrites
    return ({ c.1 with writes := Function.update c.1.writes pid val },
      { c.2 with resWrites, found := c.2.found || (c.1.writes pid).isSome })
  else return c

/-- The turn of a process. -/
def readProcess (files : Nat → ProcFiles) (c : LuaIo × LuaIoLocals) (pid : Nat) :
    Option (LuaIo × LuaIoLocals) :=
  match (files pid).io with
  | none => some c
  | some io => (linesOf io).foldlM (readIoLine pid) c

/-- `collect`: the globals afterwards, and whether a sample was made. -/
def collect (c : LuaIo) (pass : ProcPass) : Option (LuaIo × Bool) := do
  let (c, l) ← pass.pids.foldlM (readProcess pass.files) (c, {})
  if l.found then
    let io := c.io
      |>.setProperty "rd" l.resReads
      |>.setProperty "wr" l.resWrites
    return ({ c with io }, true)
  else return (c, false)

end LuaIo

/-! ### Memory -/

/-- The local variables of `collect` of `mem.lua`. -/
structure LuaMemLocals where
  total : ℚ := 0
  shared : ℚ := 0
  swap : ℚ := 0

namespace LuaMem

/-- The properties `declare` declares. -/
def properties : List String := ["total", "swap", "shared"]

/-- A line of `/proc/<pid>/smaps`. -/
def readSmapsLine (l : LuaMemLocals) (line : String) : Option LuaMemLocals :=
  let key := Lua.luaMatch "(%a+)" line
  let val := (Lua.luaMatch "(%d+)" line).bind Text.tonumber
  if key = some "Rss" then val.map (fun v => { l with total := l.total + v })
  else if key = some "Swap" then val.map (fun v => { l with swap := l.swap + v })
  else if key = some "Shared_Clean" then val.map (fun v => { l with shared := l.shared + v })
  else some l

/-- The turn of a process. -/
def readProcess (files : Nat → ProcFiles) (l : LuaMemLocals) (pid : Nat) :
    Option LuaMemLocals :=
  match (files pid).smaps with
  | none => some l
  | some smaps => (linesOf smaps).foldlM readSmapsLine l

/-- `collect`: the newest sample afterwards. -/
def collect (v : Members) (pass : ProcPass) : Option Members := do
  let l ← pass.pids.foldlM (readProcess pass.files) {}
  return v
    |>.setProperty "swap" l.swap
    |>.setProperty "total" l.total
    |>.setProperty "shared" l.shared

end LuaMem

end WatchedAgent.Model
