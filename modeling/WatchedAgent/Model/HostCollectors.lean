import WatchedAgent.Lib.OStream
import WatchedAgent.Lib.Percent
import WatchedAgent.Model.Collecting
import WatchedAgent.Model.Shares

/-!
# `WatchedAgent.Model.HostCollectors`: what the collectors do in a pass

The collectors of `collectors/*.cpp` and `services/*.cpp`, `SelfCollector` and `LuaCollector`,
as the events of their constructor and of their passes. A pass is given what it reads of the
system. A file is its text, and `none` where it cannot be opened. `real` gives the value of a
double.

An exception of `stod` or `substr` is the event `throw`. A word that is not on a line is read
as the empty text, where the source reads past the end of a vector.
-/

set_option autoImplicit false

namespace WatchedAgent.Model.Collecting

open WatchedAgent.Lib
open WatchedAgent.Lib.Text

variable (real : Option ℚ → Json)

/-! ### Events -/

/-- `ressources[res]->nextValue()`. -/
def nextOf (res : String) : Event := .call res .nextValue

/-- `ressources[res]->setProperty(name, val)`. -/
def setOf (res name : String) (val : Json) : Event := .call res (.setProperty name val)

/-- The same with a number that may not be there, which is an exception. -/
def setOrThrow (res name : String) (val : Option ℚ) : Event :=
  match val with
  | some q => setOf res name (real (some q))
  | none => .throw

/-- The properties that are set. -/
def setAll (res : String) (properties : Published) : List Event :=
  properties.map (fun e => setOf res e.1 (real e.2))

/-- A `setRaw` of `tickRessource`s: each property is read from a word of the line. -/
def setTicks (res : String) (fields : List (String × Nat)) (raw : List String) : List Event :=
  fields.map (fun f => .call res (.setTickValue f.1 (ServCpuCollector.wordValue raw f.2)))

/-- The events for the lines of a file. -/
def ofLines (file : Option String) (f : String → List Event) : List Event :=
  match file with
  | none => []
  | some text => (linesOf text).flatMap f

/-! ### Load, uptime and speed -/

/-- The turn of `CpuLoadCollector::collect`. A position that was not found becomes `-1`. -/
def cpuLoadLine (line : String) : List Event :=
  let pos := find line ' ' 0
  let second := pos.bind (fun p => find line ' ' (p + 1))
  let field (start : Option Nat) : Option ℚ := do
    let p ← start
    let text ← substrN line p (posSub (find line ' ' (p + 1)) p line.length)
    stod text
  [nextOf "avg",
    setOrThrow real "avg" "avg1" ((substrN line 0 (pos.getD line.length)).bind stod),
    setOrThrow real "avg" "avg5" (field pos),
    setOrThrow real "avg" "avg15" (field second)]

/-- The turn of `Uptime::collect`. -/
def uptimeLine (line : String) : List Event :=
  [nextOf "uptime",
    setOrThrow real "uptime" "uptime"
      ((substrN line 0 ((find line ' ' 0).getD line.length)).bind stod)]

/-- An entry of `/sys/devices/system/cpu/cpufreq`, with the text of its file
`scaling_cur_freq`. -/
structure CpuFreqEntry where
  fileName : String
  isDirectory : Bool
  scalingCurFreq : Option String

/-- Does `sscanf(file_name, "%*[^0-9]%d", &cpuid)` read a number? -/
def hasCpuId (fileName : String) : Bool :=
  !(fileName.toList.takeWhile (fun c => !isDigit c)).isEmpty
    && !(fileName.toList.dropWhile (fun c => !isDigit c)).isEmpty

/-- The turn of `CpuSpeedCollector::collect`. -/
def cpuSpeedEntry (e : CpuFreqEntry) : List Event :=
  if hasCpuId e.fileName = false ∨ e.fileName.toList.head? = some '.' ∨ e.isDirectory = false then []
  else
    match e.scalingCurFreq with
    | none => []
    | some str =>
        [.addRessource e.fileName (.plain "cpuspeed"), nextOf e.fileName,
          setOf e.fileName "MHz" (.int ((atoi str).tdiv 1000))]

/-! ### Use of the processors -/

/-- The identifier of a `cpu` line. -/
def cpuId (line : String) : String :=
  if line.toList.take 4 = "cpu ".toList then "all"
  else (substrN line 3 (posSub (find line ' ' 0) 3 line.length)).getD ""

/-- A line of the constructor of `CpuUseCollector`. -/
def cpuUseDeclare (line : String) : List Event :=
  if line.toList.take 3 = "cpu".toList then [.assign (cpuId line) .cpuTicks]
  else if line.toList.take 4 = "intr".toList then [.assign "intr" (.tick "cpu_interrupts")]
  else if line.toList.take 4 = "ctxt".toList then [.assign "ctxt" (.tick "cpu_contexts")]
  else []

/-- The first number after the name of a line. -/
def setCount (res line : String) : Event :=
  match substrN line 5 (posSub (find line ' ' 5) 5 line.length) with
  | none => .throw
  | some text => .call res (.setTickValue "value" (toUInt32 (atoi text)))

/-- The turn of `CpuUseCollector::collect`. -/
def cpuUseLine (line : String) : List Event :=
  if line.toList.take 3 = "cpu".toList then
    [nextOf (cpuId line), .call (cpuId line) (.setRaw (tokens line))]
  else if line.toList.take 4 = "intr".toList then [nextOf "intr", setCount "intr" line]
  else if line.toList.take 4 = "ctxt".toList then [nextOf "ctxt", setCount "ctxt" line]
  else []

/-! ### Disks -/

/-- The turn of `diskStatsCollector::collect`. -/
def diskStatsLine (line : String) : List Event :=
  let raw := tokens line
  let id := raw[2]?.getD ""
  if id.toList.take 3 = "dm-".toList then []
  else [.addRessource id (.tick "disk_stats"), nextOf id] ++ setTicks id diskStatsFields raw

/-- `isalnum` of the C locale. -/
def isalnum (c : UInt8) : Bool :=
  (0x30 ≤ c && c ≤ 0x39) || (0x41 ≤ c && c ≤ 0x5A) || (0x61 ≤ c && c ≤ 0x7A)

/-- The characters that `url_encode` keeps: alphanumeric ones, `-`, `_`, `.` and `~`. -/
def isKept (c : UInt8) : Bool :=
  isalnum c || c == 0x2D || c == 0x5F || c == 0x2E || c == 0x7E

/-- The turn of the loop of `url_encode`. -/
def urlEncodeByte (escaped : OStream) (c : UInt8) : OStream :=
  if isKept c then escaped.putChar (Percent.charOf c)
  else
    (((escaped.setUppercase true).putChar '%').setw 2).putNat c.toNat |>.setUppercase false

/-- `url_encode`. -/
def urlEncode (value : List UInt8) : String :=
  (value.foldl urlEncodeByte { fill := '0', hex := true }).str

/-- An entry of `/etc/mtab`, with what `statvfs` says of the directory. -/
structure MntEnt where
  dir : List UInt8
  fsname : String
  type : String
  stats : Option Statvfs

/-- Is the entry for a directory on a disk, in memory or of the devices? -/
def MntEnt.isShown (m : MntEnt) : Bool :=
  m.dir.head? == some 0x2F
    && (m.fsname.toList.head? == some '/' || m.type == "tmpfs" || m.type == "udev")

/-- The turn of `diskUsageCollector::collect`. -/
def diskUsageEntry (m : MntEnt) : List Event :=
  if m.isShown then
    match m.stats with
    | none => []
    | some stats =>
        let id := urlEncode m.dir
        [.addRessource id (.plain "disk_usage"), nextOf id]
          ++ setAll real id (diskUsageSetStats stats)
  else []

/-! ### Memory and network -/

/-- `MemoryCollector::collect`. -/
def memoryCollect (meminfo : String) : List Event :=
  match MemoryCollector.collect meminfo with
  | none => [.throw]
  | some none => []
  | some (some (swap, memory)) =>
      nextOf "swap" :: setAll real "swap" swap ++ nextOf "memory" :: setAll real "memory" memory

/-- The turn of `NetDevCollector::collect`. -/
def netDevLine (line : String) : List Event :=
  match find line ':' 0 with
  | none => []
  | some endId =>
      let before := String.ofList (line.toList.take endId)
      let start := ((rfind before ' ').map (· + 1)).getD 0
      let id := String.ofList (before.toList.drop start)
      let raw := tokens (String.ofList (line.toList.drop (endId + 1)))
      [.addRessource id (.tick "network_stat"), nextOf id] ++ setTicks id netDevFields raw

/-- The counters of `/proc/vmstat` that are shown. -/
def vmStatNames : List String :=
  ["pgpgin", "pgpgout", "pswpin", "pswpout", "pgfree", "pgactivate", "pgdeactivate", "pgfault"]

/-- The turn of `vmStatCollector::collect`. -/
def vmStatLine (line : String) : List Event :=
  let pos := find line ' ' 0
  let id := String.ofList (line.toList.take (pos.getD line.length))
  let value := String.ofList (line.toList.drop ((pos.map (· + 1)).getD 0))
  if id ∈ vmStatNames then [.call "stat" (.setTickValue id (toUInt32 (atoi value)))] else []

/-! ### Temperatures -/

/-- An entry of `/sys/class/thermal`, with the texts of its files. -/
structure ThermalEntry where
  fileName : String
  isDirectory : Bool
  temp : Option String
  type : Option String
  path : Option String

/-- `ThermalCollector::getContent`: the text without its last character. -/
def getContent (file : Option String) : String := String.ofList (file.getD "").toList.dropLast

/-- The turn of `ThermalCollector::collect`. -/
def thermalEntry (e : ThermalEntry) : List Event :=
  if "thermal_zone".toList.isPrefixOf e.fileName.toList = false ∨ e.isDirectory = false then []
  else
    let sub := getContent e.path
    let name := getContent e.type ++ String.ofList (sub.toList.drop ((find sub '.' 0).getD 0))
    [setOf "all" name (real (some ((atoi (getContent e.temp) : ℚ) / 1000)))]

/-! ### The agent itself -/

/-- The turn of `SelfCollector::collect`, for a counter with its `add` and `del`. -/
def selfCounter (c : String × Nat × Nat) : List Event :=
  [setOf "values" c.1 (.int (subUInt32 c.2.1 c.2.2)),
    .call "changes" (.setTickValue (c.1 ++ "_del") c.2.2),
    .call "changes" (.setTickValue (c.1 ++ "_add") c.2.1)]

/-! ### Services -/

/-- The property that a line of `/proc/<pid>/io` sets. -/
def ioReading (line : String) : Option (String × Nat) :=
  match find line ':' 0 with
  | none => none
  | some i =>
      let key := String.ofList (line.toList.take i)
      let v := toUInt32 (atoi (String.ofList (line.toList.drop (i + 1))))
      if key = "read_bytes" then some ("rd", v)
      else if key = "write_bytes" then some ("wt", v)
      else none

/-- The readings of a pass: a property, a process and a value each. -/
def ioReadings (pass : ProcPass) : List ((String × Nat) × Nat) :=
  pass.pids.flatMap (fun pid =>
    match (pass.files pid).io with
    | none => []
    | some io => (linesOf io).filterMap (fun line =>
        (ioReading line).map (fun e => ((e.1, pid), e.2))))

/-- `ServioCollector::collect`. -/
def ioCollect (pass : ProcPass) : List Event :=
  nextOf "io" :: (ioReadings pass).map (fun e => .call "io" (.setPidValue e.1.1 e.1.2 e.2))

/-- `ServMemCollector::collect`. -/
def memCollect (pass : ProcPass) : List Event :=
  match pass.pids.foldlM (ServMemCollector.readProcess pass.files) {} with
  | none => [.throw]
  | some l =>
      [nextOf "mem", setOf "mem" "total" (.int l.total), setOf "mem" "swap" (.int l.swap),
        setOf "mem" "shared" (.int l.shared)]

/-- `ServCpuCollector::collect`, with the tables of the collector. -/
def cpuCollect (c : ServCpuCollector) (pass : ProcPass) : List Event :=
  match c.readFiles pass with
  | none => [.throw]
  | some (c, l) =>
      if c.prevTotalTime ≠ 0 then
        [nextOf "shed", setOf "shed" "exec_runtime" (real (some l.sum)),
          setOf "shed" "process" (.int l.process), setOf "shed" "thread" (.int l.thread),
          nextOf "stat"] ++ setAll real "stat" (ServCpuCollector.shares c l)
      else []

/-! ### Scripts -/

/-- What a script of a `LuaCollector` calls. An error of the script is an exception. -/
inductive LuaCall where
  | addRessource (res typeName : String)
  | nextValue (res : String)
  | setProperty (res name : String) (val : Int)
  | setDProperty (res name : String) (val : Option ℚ)
  | error

/-- `LuaCollector::addRes`, `nextVal`, `setProp` and `setPropD`. -/
def LuaCall.event : LuaCall → Event
  | .addRessource res typeName => .addRessource res (.plain typeName)
  | .nextValue res => nextOf res
  | .setProperty res name val => setOf res name (.int val)
  | .setDProperty res name val => setOf res name (real val)
  | .error => .throw

/-! ### Plugins -/

/-- A collector, with what its constructor reads of the system. -/
inductive Plugin where
  | cpuload
  | cpuspeed
  | cpuuse (stat : Option String)
  | diskstats
  | diskusage
  | memory (meminfo : Option String)
  | netdev
  | thermal
  | uptime
  | vmstat
  | self
  | io
  | mem
  | cpu
  | lua (declare : List LuaCall)

namespace Plugin

/-- What a pass reads. A pass of the collector of a service reads nothing where the service is
gone. -/
def Input : Plugin → Type
  | cpuload | cpuuse _ | diskstats | memory _ | netdev | uptime | vmstat => Option String
  | cpuspeed => Option (List CpuFreqEntry)
  | diskusage => Option (List MntEnt)
  | thermal => Option (List ThermalEntry)
  | self => List (String × Nat × Nat)
  | io | mem => Option ProcPass
  | cpu => Option (ServCpuCollector × ProcPass)
  | lua _ => List LuaCall

/-- The constructor. -/
def construct : Plugin → List Event
  | cpuload => [.addRessource "avg" (.plain "loadaverage")]
  | cpuspeed | diskstats | diskusage | netdev => []
  | cpuuse stat => ofLines stat cpuUseDeclare
  | memory none => []
  | memory (some _) =>
      [.addRessource "swap" (.plain "swap_usage"), .addRessource "memory" (.plain "memory_usage")]
  | thermal => [.addRessource "all" (.plain "thermal")]
  | uptime => [.addRessource "uptime" (.plain "uptime")]
  | vmstat => [.assign "stat" (.tick "memory_stats")]
  | self =>
      [.assign "changes" (.tick "watched_agent_count"),
        .addRessource "values" (.plain "watched_agent_values")]
  | io => [.assign "io" (.pid 1)]
  | mem => [.addRessource "mem" (.plain "serviceMemory")]
  | cpu =>
      [.addRessource "shed" (.plain "service_cpu_shed"),
        .addRessource "stat" (.plain "service_cpu_stat")]
  | lua declare => declare.map (LuaCall.event real)

/-- `collect()`. -/
def collect : (p : Plugin) → p.Input → List Event
  | cpuload, file => ofLines file (cpuLoadLine real)
  | cpuspeed, dir => (Option.getD dir []).flatMap cpuSpeedEntry
  | cpuuse _, file => ofLines file cpuUseLine
  | diskstats, file => ofLines file diskStatsLine
  | diskusage, mtab => (Option.getD mtab []).flatMap (diskUsageEntry real)
  | memory _, file => Option.elim file [] (memoryCollect real)
  | netdev, file => ofLines file netDevLine
  | thermal, dir => Option.elim dir [] (fun entries => nextOf "all" :: entries.flatMap (thermalEntry real))
  | uptime, file => ofLines file (uptimeLine real)
  | vmstat, file => nextOf "stat" :: ofLines file vmStatLine
  | self, counters => [nextOf "values", nextOf "changes"] ++ counters.flatMap selfCounter
  | io, pass => Option.elim pass [] ioCollect
  | mem, pass => Option.elim pass [] memCollect
  | cpu, pass => Option.elim pass [] (fun p => cpuCollect real p.1 p.2)
  | lua _, calls => calls.map (LuaCall.event real)

/-- The life of a collector: its constructor, and passes. -/
def events (p : Plugin) (passes : List p.Input) : List Event :=
  p.construct real ++ .built :: passes.flatMap (fun f => .pass :: p.collect real f)

end Plugin

end WatchedAgent.Model.Collecting
