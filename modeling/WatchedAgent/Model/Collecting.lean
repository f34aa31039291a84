import WatchedAgent.Model.SystemCollectors

/-!
# `WatchedAgent.Model.Collecting`: the calls a collector makes on its ressources

A collector constructs ressources with the `history` and the `poll-frequency` of its
configuration, and its passes call them. `Series` is a ressource of any of the four classes,
and `Event` is what a constructor or a pass does: it constructs a ressource, calls one, or
throws.

A call on an empty `v` and a division by zero are undefined in the source, and so are a call
through a null pointer and a call of a method that the class of the ressource does not have.
No collector sets a property of a `pidRessource` itself, so that counts as such a method.
After any of them there is no collector any more (`Mode.gone`). `Series.Defined` says that a
call is neither of the first two. An exception ends a pass, or the constructor.
-/

set_option autoImplicit false

namespace WatchedAgent.Model.Collecting

open WatchedAgent.Lib (Json)

/-! ### Ressources -/

/-- A ressource by its class. -/
inductive Series where
  | plain (r : Ressource)
  | cpuTicks (r : Ressource) (ticks : CpuTicks)
  | tick (r : TickRessource)
  | pid (r : PidSeries)

/-- The class of a ressource, with the arguments of its constructor that are not read from the
configuration. -/
inductive SeriesClass where
  | plain (typeName : String)
  | cpuTicks
  | tick (typeName : String)
  | pid (factor : ℚ)
  deriving DecidableEq

/-- A call on a ressource. -/
inductive SeriesCall where
  | nextValue
  | setProperty (name : String) (val : Json)
  | setRaw (raw : List String)
  | setTickValue (name : String) (value : Nat)
  | setPidValue (name : String) (pid value : Nat)

/-- The properties that are set, one after the other. `real` gives the value of a double. -/
def setProperties (real : Option ℚ → Json) (properties : Published) (r : Ressource) : Ressource :=
  properties.foldl (fun r e => r.setProperty e.1 (real e.2)) r

namespace Series

/-- The call accesses no `v[0]` of an empty `v`, and divides by no zero. -/
def Defined : Series → SeriesCall → Prop
  | .plain r, .setProperty _ _ => r.v ≠ []
  | .cpuTicks r _, .setProperty _ _ => r.v ≠ []
  | .cpuTicks r _, .setRaw _ => r.v ≠ []
  | .tick r, .setProperty _ _ => r.v ≠ []
  | .tick r, .setTickValue name _ => r.v ≠ [] ∧ ((r.old name).isSome → r.freq ≠ 0)
  | .pid r, .nextValue => (r.nextValue 0).isSome
  | .pid r, .setPidValue name process value => (r.setPidValue name process value).isSome
  | _, _ => True

/-- The ressource after the call at the time `now`, and `none` where the call is undefined. -/
def call (real : Option ℚ → Json) (now : Int) : Series → SeriesCall → Option Series
  | .plain r, .nextValue => some (.plain (r.nextValue now))
  | .plain r, .setProperty name val =>
      if r.v = [] then none else some (.plain (r.setProperty name val))
  | .cpuTicks r ticks, .nextValue => some (.cpuTicks (r.nextValue now) ticks)
  | .cpuTicks r ticks, .setProperty name val =>
      if r.v = [] then none else some (.cpuTicks (r.setProperty name val) ticks)
  | .cpuTicks r ticks, .setRaw raw =>
      let (ticks, properties) := ticks.setRaw raw
      if r.v = [] then none else some (.cpuTicks (setProperties real properties r) ticks)
  | .tick r, .nextValue => some (.tick (r.nextValue now))
  | .tick r, .setProperty name val =>
      if r.v = [] then none else some (.tick { r with toRessource := r.setProperty name val })
  | .tick r, .setTickValue name value =>
      if r.v = [] ∨ ((r.old name).isSome ∧ r.freq = 0) then none
      else some (.tick (r.setTickValue name value))
  | .pid r, .nextValue => (r.nextValue now).map .pid
  | .pid r, .setPidValue name process value => (r.setPidValue name process value).map .pid
  | _, _ => none

end Series

/-! ### Collectors -/

/-- `asUInt()` of a number that is not negative, `none` when it throws. -/
def asUInt (n : Nat) : Option Nat := if n < 0x100000000 then some n else none

/-- Whether the constructor runs, a pass does, or an exception has ended a pass. -/
inductive Mode where
  | building
  | running
  | thrown
  | gone
  deriving DecidableEq

/-- A collector with its configuration. `clock` is read at each step. -/
structure State where
  history : Nat
  pollFrequency : Nat
  clock : Nat → Int
  steps : Nat := 0
  ressources : String → Option Series := fun _ => none
  mode : Mode := .building

/-- What a constructor or a pass does. -/
inductive Event where
  | assign (res : String) (c : SeriesClass)
  | addRessource (res : String) (c : SeriesClass)
  | call (res : String) (c : SeriesCall)
  | throw
  | built
  | pass

namespace State

/-- Are the events of the constructor or the pass still carried out? -/
def active (s : State) : Bool := s.mode == .building || s.mode == .running

/-- The new ressource. `none` when a number of the configuration does not fit. -/
def make (s : State) : SeriesClass → Option Series
  | .plain typeName => do
      let size ← asUInt s.history
      return .plain { typeName, size }
  | .cpuTicks => do
      let size ← asUInt s.history
      return .cpuTicks { typeName := "cpu_usage", size } {}
  | .tick typeName => do
      let size ← asUInt s.history
      let freq ← asUInt s.pollFrequency
      return .tick { typeName, size, freq }
  | .pid factor => do
      let size ← asUInt s.history
      return .pid { size, factor }

/-- An exception. One of the constructor leaves no collector. -/
def throw (s : State) : State :=
  { s with mode := if s.mode = .building then .gone else .thrown }

/-- `ressources[res] = std::make_shared<...>(...)`. -/
def assign (s : State) (res : String) (c : SeriesClass) : State :=
  match s.make c with
  | none => s.throw
  | some r => { s with ressources := Function.update s.ressources res (some r) }

/-- A call on the ressource with that name. -/
def call (real : Option ℚ → Json) (s : State) (res : String) (c : SeriesCall) : State :=
  match (s.ressources res).bind (fun r => r.call real (s.clock s.steps) c) with
  | none => { s with mode := .gone }
  | some r => { s with ressources := Function.update s.ressources res (some r) }

/-- An event that is carried out. -/
def act (real : Option ℚ → Json) (s : State) : Event → State
  | .assign res c => s.assign res c
  | .addRessource res c => if (s.ressources res).isSome then s else s.assign res c
  | .call res c => s.call real res c
  | .throw => s.throw
  | .built => { s with mode := .running }
  | .pass => s

/-- One step. A pass begins anew after an exception. -/
def step (real : Option ℚ → Json) (s : State) (e : Event) : State :=
  let s := { s with steps := s.steps + 1 }
  match e with
  | .pass => if s.mode = .thrown then { s with mode := .running } else s
  | e => if s.active then s.act real e else s

/-- The calls of the step are defined. -/
def Defined (s : State) : Event → Prop
  | .call res c => s.active = true → ∀ r, s.ressources res = some r → r.Defined c
  | _ => True

end State

end WatchedAgent.Model.Collecting
