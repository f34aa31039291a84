import WatchedAgent.Model.Ressource
import WatchedAgent.Model.ServiceCollectors

/-!
# `WatchedAgent.Model.Rates`: ressources that publish increases

`tickRessource` and `pidRessource` of `include/collectors.h` are handed the readings of
counters, and publish what these have grown since the reading before. `netDevRess` and
`diskStatsRess` are the two `tickRessource`s that take their readings from the words of a line.

`PidSeries` is `pidRessource` as it stands, with all its samples and with the accesses of
`v[0]` that have to find a sample. `PidRessource` is its newest sample for the factor 1.
-/

set_option autoImplicit false

namespace WatchedAgent.Model

open WatchedAgent.Lib

/-- A difference kept in a `uint32_t`. -/
def subUInt32 (a b : Nat) : Nat := (a + 0x100000000 - b) % 0x100000000

/-- The difference of two readings is what the counter has grown, also where a reading
wrapped. -/
theorem subUInt32_mod {a b : Nat} (hle : b ≤ a) (hlt : a < b + 0x100000000) :
    subUInt32 (a % 0x100000000) (b % 0x100000000) = a - b := by
  unfold subUInt32
  omega

/-! ### Ticks -/

/-- `class tickRessource`. -/
structure TickRessource extends Ressource where
  freq : Nat
  old : String → Option Nat := fun _ => none

namespace TickRessource

/-- `nextValue`, which it inherits. -/
def nextValue (now : Int) (r : TickRessource) : TickRessource :=
  { r with toRessource := r.toRessource.nextValue now }

/-- What `setTickValue` hands to `setProperty`. -/
def tickValue (name : String) (value : Nat) (r : TickRessource) : Nat :=
  match r.old name with
  | some old => subUInt32 value old / r.freq
  | none => 0

/-- `tickRessource::setTickValue`. -/
def setTickValue (name : String) (value : Nat) (r : TickRessource) : TickRessource :=
  { r with
    toRessource := r.toRessource.setProperty name (.int (r.tickValue name value))
    old := Function.update r.old name (some value) }

/-- The properties of a ressource, each read from a word of the line. A line that is too short
is undefined in the source. -/
def setRaw (fields : List (String × Nat)) (raw : List String) (r : TickRessource) :
    TickRessource :=
  fields.foldl (fun r f => r.setTickValue f.1 (ServCpuCollector.wordValue raw f.2)) r

end TickRessource

/-- The properties that `netDevRess` sets, with the places of their words. -/
def netDevFields : List (String × Nat) :=
  [("rbytes", 0), ("rpackets", 1), ("rerrs", 2), ("rdrop", 3), ("rmulti", 7), ("tbytes", 8),
    ("tpackets", 9), ("terrs", 10), ("tdrop", 11)]

/-- `netDevRess::setRaw`. -/
def netDevSetRaw : List String → TickRessource → TickRessource := TickRessource.setRaw netDevFields

/-- The properties that `diskStatsRess` sets, with the places of their words. -/
def diskStatsFields : List (String × Nat) :=
  [("rcount", 3), ("rmerge", 4), ("rsector", 5), ("rtime", 6), ("wcount", 7), ("wmerge", 8),
    ("wsector", 9), ("wtime", 10), ("iotime", 12), ("iowtime", 13)]

/-- `diskStatsRess::setRaw`. -/
def diskStatsSetRaw : List String → TickRessource → TickRessource :=
  TickRessource.setRaw diskStatsFields

/-! ### Processes -/

/-- `class pidRessource`. -/
structure PidSeries where
  size : Nat
  factor : ℚ
  values : List (String × PidMap Nat) := []
  v : List Members := []

namespace PidSeries

/-- `v[0][name] = val`, and `none` without a sample. -/
def assign (name : String) (val : ℚ) : List Members → Option (List Members)
  | [] => none
  | s :: v => some (s.setProperty name val :: v)

/-- `Ressource::nextValue`, at the time `now`. -/
def insertSample (now : ℚ) (r : PidSeries) : List Members :=
  ((r.v.headD []).setProperty "timestamp" now :: r.v).take r.size

/-- `pidRessource::nextValue`: a sample is made when some value was set before, and all values
start at zero. -/
def nextValue (now : ℚ) (r : PidSeries) : Option PidSeries := do
  let v ← r.values.foldlM (fun v i => assign i.1 0 v)
    (if r.values.isEmpty then r.v else r.insertSample now)
  return { r with v }

/-- The growth of a value is added to the newest sample where the process was read before. -/
def addGrowth (name : String) (pid value : Nat) (r : PidSeries) : Option (List Members) :=
  match (r.values.lookup name).bind (fun m => m pid) with
  | some old =>
      if old < value then
        let shown := ((r.v.headD []).lookup name).getD 0
        assign name (shown + r.factor * ((value - old : Nat) : ℚ)) r.v
      else some r.v
  | none => some r.v

/-- `pidRessource::setPidValue`. -/
def setPidValue (name : String) (pid value : Nat) (r : PidSeries) : Option PidSeries := do
  let v ← r.addGrowth name pid value
  return { r with v, values := PidRessource.setValue name pid value r.values }

end PidSeries

end WatchedAgent.Model
