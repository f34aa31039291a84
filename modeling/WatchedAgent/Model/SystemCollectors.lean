import WatchedAgent.Model.Rates

/-!
# `WatchedAgent.Model.SystemCollectors`: the collectors of the host

`cpuTicks::setRaw`, `MemoryCollector::collect` and `diskUsageRess::setStats` of
`collectors/*.cpp`. Each hands doubles to `setProperty`, some of which are quotients of what it
has read. A double is the fraction it stands for, and `none` where it is infinite or not a
number.
-/

set_option autoImplicit false

namespace WatchedAgent.Model

open WatchedAgent.Lib
open WatchedAgent.Lib.Text

/-- The properties that are set, with their values. -/
abbrev Published := List (String × Option ℚ)

/-- A product kept in a `uint32_t`. -/
def mulUInt32 (a b : Nat) : Nat := (a * b) % 0x100000000

/-- A product kept in a `uint64_t`. -/
def mulUInt64 (a b : Nat) : Nat := (a * b) % 0x10000000000000000

/-! ### Ticks of a processor -/

/-- `class cpuTicks`. -/
structure CpuTicks where
  live : String → Nat := fun _ => 0
  old : String → Nat := fun _ => 0
  diff : String → Nat := fun _ => 0

namespace CpuTicks

/-- The counters, with the places of their words. -/
def counters : List (String × Nat) :=
  [("user", 1), ("nice", 2), ("system", 3), ("idle", 4), ("iowait", 5), ("irq", 6), ("softirq", 7)]

/-- The keys of `live`, in the order of the map. -/
def ids : List String := ["idle", "iowait", "irq", "nice", "softirq", "system", "user"]

/-- The assignments to `live`. A line that is too short is undefined in the source. -/
def readLive (raw : List String) (live : String → Nat) : String → Nat :=
  let live := counters.foldl (fun live f =>
    Function.update live f.1 (ServCpuCollector.wordValue raw f.2)) live
  -- A very high value is taken for bogus.
  if 10000000 < live "iowait" then Function.update live "iowait" 0 else live

/-- A turn of the first loop: the difference of a counter, and the sum so far. -/
def turn (c : CpuTicks × Nat) (id : String) : CpuTicks × Nat :=
  let d := subUInt32 (c.1.live id) (c.1.old id)
  ({ c.1 with
      diff := Function.update c.1.diff id d
      old := Function.update c.1.old id (c.1.live id) }, addUInt32 c.2 d)

/-- `cpuTicks::setRaw`. -/
def setRaw (raw : List String) (r : CpuTicks) : CpuTicks × Published :=
  let (r, sum) := ids.foldl turn ({ r with live := readLive raw r.live }, 0)
  (r, (ids.filter (· != "idle")).map (fun id => (id, quotient (r.diff id * 100) sum)))

end CpuTicks

/-! ### Memory -/

namespace MemoryCollector

/-- The names that `collect` has a variable for. -/
def names : List String :=
  ["MemTotal", "MemFree", "Buffers", "Cached", "Slab", "SwapTotal", "SwapFree"]

/-- Where the value of a line starts: at the first character after the colon that is not a
blank. -/
def start (line : String) : Nat :=
  let start := posAdd (find line ':' 0) 1
  (((line.toList.drop start).findIdx? (· != ' ')).map (· + start)).getD start

/-- The number on a line. -/
def value (line : String) : Option Nat := do
  let start := start line
  let text ← substrN line start (posSub (find line ' ' (start + 1)) start line.length)
  return toUInt32 (atoi text)

/-- A line of `/proc/meminfo`, with the variables by their names. -/
def readLine (l : String → Nat) (line : String) : Option (String → Nat) := do
  let id ← substrN line 0 ((find line ':' 0).getD line.length)
  let value ← value line
  return if id ∈ names then Function.update l id value else l

/-- The properties of the ressource `swap`. -/
def swap (l : String → Nat) : Published :=
  [("free", some (l "SwapFree" : ℚ)),
    ("used", some (subUInt32 (l "SwapTotal") (l "SwapFree") : ℚ)),
    ("pct", quotient (mulUInt32 100 (l "SwapFree")) (l "SwapTotal"))]

/-- The properties of the ressource `memory`. -/
def memory (l : String → Nat) : Published :=
  let used := addUInt32 (addUInt32 (addUInt32 (l "MemFree") (l "Cached")) (l "Slab")) (l "Buffers")
  [("free", some (l "MemFree" : ℚ)),
    ("buffer", some (l "Buffers" : ℚ)),
    ("apps", some (subUInt32 (l "MemTotal") used : ℚ)),
    ("cached", some (l "Cached" : ℚ)),
    ("slab", some (l "Slab" : ℚ)),
    ("pct", quotient (mulUInt32 100 (l "MemFree")) (l "MemTotal"))]

/-- `MemoryCollector::collect` on the text of `/proc/meminfo`: what it publishes under `swap`
and `memory`, and nothing where there is no line. `none` is an exception. -/
def collect (meminfo : String) : Option (Option (Published × Published)) := do
  let lines := linesOf meminfo
  let l ← lines.foldlM readLine (fun _ => 0)
  return if lines.isEmpty then none else some (swap l, memory l)

end MemoryCollector

/-! ### File systems -/

/-- The fields of `struct statvfs` that are read, each below `2 ^ 64`. -/
structure Statvfs where
  bsize : UInt64
  blocks : UInt64
  bavail : UInt64
  files : UInt64
  favail : UInt64

/-- `diskUsageRess::setStats`. -/
def diskUsageSetStats (s : Statvfs) : Published :=
  [("size", quotient (mulUInt64 s.bsize.toNat s.blocks.toNat) (1024 * 1024)),
    ("free", quotient (mulUInt64 s.bsize.toNat s.bavail.toNat) (1024 * 1024)),
    ("pctfree", quotient (mulUInt64 s.bavail.toNat 100) s.blocks.toNat),
    ("ipctfree", quotient (mulUInt64 s.favail.toNat 100) s.files.toNat)]

end WatchedAgent.Model
