import Mathlib.Data.String.Basic
import WatchedAgent.Lib.OrderedMap
import WatchedAgent.Model.HostCollectors

/-!
# `WatchedAgent.Model.Documents`: the definitions of the ressources

`addProperty` of `include/collectors.h` declares a property of a ressource, and the document of
the agent has a definition for each type of ressources, with the properties that the ressources of
this type declare (`Ressource::getDefinition`, `Collector::getDefinitions`). The constructors and
the passes are those of `Model.HostCollectors` with the calls of `addProperty`.

Most ressources get their properties when they are made, from the constructor of their class or
from the lines behind it (`ownProperties`). The collectors are enabled: another one neither collects
nor is in the document.
-/

set_option autoImplicit false

namespace WatchedAgent.Model.Collecting

open WatchedAgent.Lib
open WatchedAgent.Lib.Text

/-! ### Properties -/

/-- The arguments of `addProperty`. -/
structure Property where
  p_name : String
  p_desc : String
  p_typename : String
  deriving DecidableEq

/-- The maps `d` and `t` of a ressource: the description and the type under each name. -/
abbrev Declared := List (String × String × String)

/-- `Ressource::addProperty`. -/
def addProperty (declared : Declared) (p : Property) : Declared :=
  OrderedMap.insert p.p_name (p.p_desc, p.p_typename) declared

/-- What a constructor or a pass does, with the declarations. -/
inductive DocEvent where
  | event (e : Event)
  | addProperty (res : String) (p : Property)

/-- A collector with the maps of its ressources. -/
structure DocState where
  state : State
  declared : List (String × Declared) := []

namespace DocState

/-- The maps of a ressource. -/
def declaredOf (s : DocState) (res : String) : Declared := (s.declared.lookup res).getD []

/-- Does the event make a ressource? -/
def makes (s : DocState) : Event → Option (String × SeriesClass)
  | .assign res c => if s.state.active ∧ (s.state.make c).isSome then some (res, c) else none
  | .addRessource res c =>
      if s.state.active ∧ (s.state.ressources res).isNone ∧ (s.state.make c).isSome then
        some (res, c)
      else none
  | _ => none

/-- One step. `own` gives the properties that a new ressource has. -/
def step (real : Option ℚ → Json) (own : SeriesClass → List Property) (s : DocState) :
    DocEvent → DocState
  | .event e =>
      { state := s.state.step real e
        declared :=
          match s.makes e with
          | some (res, c) => OrderedMap.insert res ((own c).foldl addProperty []) s.declared
          | none => s.declared }
  | .addProperty res p =>
      if s.state.active then
        -- The call through a null pointer is undefined.
        if (s.state.ressources res).isNone then { s with state := { s.state with mode := .gone } }
        else { s with declared := OrderedMap.insert res (addProperty (s.declaredOf res) p) s.declared }
      else s

end DocState

/-! ### The document -/

/-- A property in the document. -/
structure PropertyDoc where
  type : String
  description : String
  format : Option String := none
  deriving DecidableEq

/-- A definition: its `properties`, and the member `x-isService`. The members `type` and `required`
are always the same. -/
structure Definition where
  isService : Bool := false
  properties : List (String × PropertyDoc) := []
  deriving DecidableEq

/-- `typeName`. That of a `pidRessource` is always the same. -/
def Series.typeName : Series → String
  | .plain r => r.typeName
  | .cpuTicks r _ => r.typeName
  | .tick r => r.typeName
  | .pid _ => "service_io"

/-- The turn of the loop of `Ressource::getDefinition`. A `format` that is there stays. -/
def writeProperty (properties : List (String × PropertyDoc)) (i : String × String × String) :
    List (String × PropertyDoc) :=
  OrderedMap.insert i.1
    { type := i.2.2, description := i.2.1, format := (properties.lookup i.1).bind (·.format) }
    properties

/-- `Ressource::getDefinition`. -/
def getDefinition (declared : Declared) (def_ : Definition) : Definition :=
  let timestamp : PropertyDoc :=
    { type := "number", description := "timestamp", format := some "double" }
  { def_ with
    properties := declared.foldl writeProperty
      (OrderedMap.insert "timestamp" timestamp def_.properties) }

/-- The definitions by their types. -/
abbrev Definitions := List (String × Definition)

/-- `(*p_defs)[typeName]`, as a new one if there is none. -/
def Definitions.at (defs : Definitions) (typeName : String) (haveService : Bool) : Definition :=
  (defs.lookup typeName).getD { isService := haveService }

/-- `Collector::getDefinitions`. -/
def getDefinitions (haveService : Bool) (s : DocState) (defs : Definitions) : Definitions :=
  s.declared.foldl (fun defs i =>
    match s.state.ressources i.1 with
    | some r =>
        OrderedMap.insert r.typeName (getDefinition i.2 (defs.at r.typeName haveService)) defs
    | none => defs) defs

/-- The definitions of `CollectorsManager::getJson` and `service::getJson`, for all collectors that
they go over. The first component of a collector is its `haveService`. -/
def allDefinitions (collectors : List (Bool × DocState)) (defs : Definitions) : Definitions :=
  collectors.foldl (fun defs c => getDefinitions c.1 c.2 defs) defs

/-! ### Plugins -/

/-- Does the collector declare its properties when it makes a ressource, or in its passes? -/
def Plugin.declaresAlone : Plugin → Bool
  | .vmstat | .self | .lua _ => false
  | _ => true

/-- A call of a script, with `LuaCollector::addProp`. -/
inductive LuaDocCall where
  | call (c : LuaCall)
  | addProperty (res : String) (p : Property)

/-- A collector, with what the constructor reads for its declarations: the text of `/proc/vmstat`,
and the names of the counters. -/
inductive DocPlugin where
  | host (p : Plugin) (h : p.declaresAlone = true)
  | vmstat (file : Option String)
  | self (counters : List String)
  | lua (declare : List LuaDocCall)

/-- The properties of a new ressource. -/
def Plugin.ownProperties : Plugin → SeriesClass → List Property
  | .cpuload, _ => [
      ⟨"avg1", "Load average (1mn)", "number"⟩,
      ⟨"avg5", "Load average (5mn)", "number"⟩,
      ⟨"avg15", "Load average (15mn)", "number"⟩]
  | .cpuspeed, _ => [⟨"MHz", "CPU speed (Mhz)", "number"⟩]
  | .cpuuse _, .cpuTicks => [
      ⟨"user", "Normal processes usage(%)", "number"⟩,
      ⟨"nice", "Nice processes usage(%)", "number"⟩,
      ⟨"system", "System usage(%)", "number"⟩,
      ⟨"iowait", "IO wait(%)", "number"⟩,
      ⟨"irq", "Sevicing interupts(%)", "number"⟩,
      ⟨"softirq", "Sevicing softirq(%)", "number"⟩]
  | .cpuuse _, .tick typeName =>
      if typeName = "cpu_interrupts" then [⟨"value", "Interrupts", "number"⟩]
      else [⟨"value", "Context switches", "number"⟩]
  | .diskstats, _ => [
      ⟨"rcount", "Read count/s", "number"⟩,
      ⟨"rmerge", "Read merge/s", "number"⟩,
      ⟨"rsector", "Sectors read/s", "number"⟩,
      ⟨"rtime", "Read time ms/s", "number"⟩,
      ⟨"wcount", "Write count/s", "number"⟩,
      ⟨"wmerge", "Write merge/s", "number"⟩,
      ⟨"wsector", "Sectors write/s", "number"⟩,
      ⟨"wtime", "Write time ms/s", "number"⟩,
      ⟨"iotime", "IO time ms/s", "number"⟩,
      ⟨"iowtime", "Weighted IO time ms/s", "number"⟩]
  | .diskusage, _ => [
      ⟨"size", "Total size (Mb)", "integer"⟩,
      ⟨"free", "Free storage (Mb)", "integer"⟩,
      ⟨"pctfree", "Free space %", "number"⟩,
      ⟨"ipctfree", "Free inode %", "number"⟩]
  | .memory _, .plain typeName =>
      if typeName = "swap_usage" then [
        ⟨"free", "Free swap (Kb)", "integer"⟩,
        ⟨"used", "Used swap (Kb)", "integer"⟩,
        ⟨"pct", "Free swap (%)", "number"⟩]
      else [
        ⟨"free", "Free memory (Kb)", "integer"⟩,
        ⟨"buffer", "Buffer memory (kb)", "integer"⟩,
        ⟨"apps", "Application memory (Kb)", "integer"⟩,
        ⟨"cached", "Cached memory (kb)", "integer"⟩,
        ⟨"slab", "Kernel memory (kb)", "integer"⟩,
        ⟨"pct", "Free memory (%)", "number"⟩]
  | .netdev, _ => [
      ⟨"rbytes", "Bytes/s (receive)", "number"⟩,
      ⟨"rpackets", "Packets/s (receive)", "number"⟩,
      ⟨"rerrs", "Errors/s (receive)", "number"⟩,
      ⟨"rdrop", "Drops/s (receive)", "number"⟩,
      ⟨"rmulti", "Multicast/s (receive)", "number"⟩,
      ⟨"tbytes", "Bytes/s (transmit)", "number"⟩,
      ⟨"tpackets", "Packets/s (transmit)", "number"⟩,
      ⟨"terrs", "Errors/s (transmit)", "number"⟩,
      ⟨"tdrop", "Drop/s (transmit)", "number"⟩]
  | .uptime, _ => [⟨"uptime", "System uptime", "number"⟩]
  | .io, _ => [⟨"rd", "Read bytes", "number"⟩, ⟨"wt", "Write bytes", "number"⟩]
  | .mem, _ => [
      ⟨"total", "Total Memory usage (kB)", "number"⟩,
      ⟨"swap", "Swapped (kB)", "number"⟩,
      ⟨"shared", "Shared Libraries (kB)", "number"⟩]
  | .cpu, .plain typeName =>
      if typeName = "service_cpu_shed" then [
        ⟨"exec_runtime", "exec_runtime stat from the sheduler", "number"⟩,
        ⟨"process", "Number of process", "number"⟩,
        ⟨"thread", "total number of threads", "number"⟩]
      else [
        ⟨"user", "user %", "number"⟩,
        ⟨"system", "system %", "number"⟩,
        ⟨"pct", "total % used", "number"⟩,
        ⟨"cuser", "user % cumulated", "number"⟩,
        ⟨"csystem", "system % cumulated", "number"⟩]
  | _, _ => []

/-- What `vmStatCollector` says of a counter that it shows. -/
def vmStatDescs : List (String × String) := [
  ("pgpgin", "Page in /s"),
  ("pgpgout", "Page out /s"),
  ("pswpin", "Swap in /s"),
  ("pswpout", "Swap out /s"),
  ("pgfree", "Page free /s"),
  ("pgactivate", "Page Activations /s"),
  ("pgdeactivate", "Page Desactivations /s"),
  ("pgfault", "Page faults /s")]

/-- The name of a line of `/proc/vmstat`. -/
def vmStatId (line : String) : String :=
  String.ofList (line.toList.take ((find line ' ' 0).getD line.length))

/-- A line of the constructor of `vmStatCollector`. -/
def vmStatDeclare (line : String) : List DocEvent :=
  match vmStatDescs.lookup (vmStatId line) with
  | some desc => [.addProperty "stat" ⟨vmStatId line, desc, "number"⟩]
  | none => []

/-- The turn of the constructor of `SelfCollector`. -/
def selfDeclare (counter : String) : List DocEvent := [
  .addProperty "values" ⟨counter, counter ++ " current count", "number"⟩,
  .addProperty "changes" ⟨counter ++ "_del", counter ++ " deleted", "number"⟩,
  .addProperty "changes" ⟨counter ++ "_add", counter ++ " added", "number"⟩]

/-- `ThermalCollector` declares a property before it sets it. -/
def thermalDeclare : Event → List DocEvent
  | .call res (.setProperty name val) =>
      [.addProperty res ⟨name, name ++ " temperature", "number"⟩,
        .event (.call res (.setProperty name val))]
  | e => [.event e]

namespace DocPlugin

variable (real : Option ℚ → Json)

/-- The calls of a script that are no declarations. -/
def callsOf (calls : List LuaDocCall) : List LuaCall :=
  calls.filterMap (fun c => match c with
    | .call c => some c
    | .addProperty _ _ => none)

/-- The collector without its declarations. -/
def plugin : DocPlugin → Plugin
  | host p _ => p
  | vmstat _ => .vmstat
  | self _ => .self
  | lua declare => .lua (callsOf declare)

/-- What a pass reads. -/
def Input : DocPlugin → Type
  | host p _ => p.Input
  | vmstat _ => Option String
  | self _ => List (String × Nat × Nat)
  | lua _ => List LuaDocCall

/-- The same without the declarations of a script. -/
def input : (p : DocPlugin) → p.Input → p.plugin.Input
  | host _ _, i => i
  | vmstat _, i => i
  | self _, i => i
  | lua _, calls => callsOf calls

/-- The properties of a new ressource. A script declares all of them by calls. -/
def own : DocPlugin → SeriesClass → List Property
  | host p _ => p.ownProperties
  | _ => fun _ => []

/-- A call of a script. -/
def luaEvent : LuaDocCall → DocEvent
  | .call c => .event (c.event real)
  | .addProperty res p => .addProperty res p

/-- The constructor. -/
def construct : DocPlugin → List DocEvent
  | host p _ => (p.construct real).map .event
  | vmstat file =>
      (Plugin.vmstat.construct real).map .event
        ++ (file.elim [] (fun text => (linesOf text).flatMap vmStatDeclare))
  | self counters => (Plugin.self.construct real).map .event ++ counters.flatMap selfDeclare
  | lua declare => declare.map (luaEvent real)

/-- `collect()`. -/
def collect : (p : DocPlugin) → p.Input → List DocEvent
  | host .thermal _, dir => (Plugin.thermal.collect real dir).flatMap thermalDeclare
  | host p _, i => (p.collect real i).map .event
  | vmstat _, file => (Plugin.vmstat.collect real file).map .event
  | self _, counters => (Plugin.self.collect real counters).map .event
  | lua _, calls => calls.map (luaEvent real)

/-- The life of a collector. -/
def events (p : DocPlugin) (passes : List p.Input) : List DocEvent :=
  p.construct real ++ .event .built :: passes.flatMap (fun f => .event .pass :: p.collect real f)

end DocPlugin

end WatchedAgent.Model.Collecting
