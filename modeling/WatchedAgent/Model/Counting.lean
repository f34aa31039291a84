import Mathlib.Algebra.BigOperators.Group.List.Basic
import Mathlib.Algebra.GroupWithZero.Nat
import Mathlib.Data.String.Basic
import WatchedAgent.Lib.OrderedMap
import WatchedAgent.Lib.Run
import WatchedAgent.Model.HostCollectors

/-!
# `WatchedAgent.Model.Counting`: the counters of the agent's own objects

`globalCounters` counts what the agent makes and what it drops, in two `uint32_t` for each kind.
Here are the parts of `Ressource` that write to it. A state has the counters and all ressources
that were constructed, by the order of their constructions. A ressource that was destroyed is
`none`.

The counters are not locked in the source. Each event here is one whole call.
-/

set_option autoImplicit false

namespace WatchedAgent.Model

open WatchedAgent.Lib (Json OrderedMap.insert)

namespace Counting

/-- `struct counter`. -/
structure Counter where
  add : Nat := 0
  del : Nat := 0
  deriving DecidableEq

/-- `globalCounters`. -/
abbrev GlobalCounters := List (String × Counter)

namespace GlobalCounters

/-- `globalCounters[key]`. A key that is missing is inserted with two zeros. -/
def counter (g : GlobalCounters) (key : String) : Counter := (g.lookup key).getD {}

/-- `globalCounters[key].add++`. -/
def countAdd (key : String) (g : GlobalCounters) : GlobalCounters :=
  let c := g.counter key
  OrderedMap.insert key { c with add := (c.add + 1) % 0x100000000 } g

/-- `globalCounters[key].del += n`. -/
def countDel (key : String) (n : Nat) (g : GlobalCounters) : GlobalCounters :=
  let c := g.counter key
  OrderedMap.insert key { c with del := (c.del + n) % 0x100000000 } g

/-- The figure of a counter: `add - del`. -/
def figure (g : GlobalCounters) (key : String) : Nat :=
  subUInt32 (g.counter key).add (g.counter key).del

/-- What `SelfCollector::collect` does with the counters. -/
def collected (g : GlobalCounters) : List Collecting.Event :=
  g.flatMap (fun e => Collecting.selfCounter (e.1, e.2.add, e.2.del))

theorem counter_countAdd (key : String) (g : GlobalCounters) (k : String) :
    (g.countAdd key).counter k = if k = key
      then { add := ((g.counter key).add + 1) % 0x100000000, del := (g.counter key).del }
      else g.counter k := by
  unfold countAdd counter
  rw [Lib.OrderedMap.lookup_insert]
  split <;> rfl

theorem counter_countDel (key : String) (n : Nat) (g : GlobalCounters) (k : String) :
    (g.countDel key n).counter k = if k = key
      then { add := (g.counter key).add, del := ((g.counter key).del + n) % 0x100000000 }
      else g.counter k := by
  unfold countDel counter
  rw [Lib.OrderedMap.lookup_insert]
  split <;> rfl

end GlobalCounters

/-- The counters, and the ressources that were constructed. -/
structure State where
  globalCounters : GlobalCounters := []
  ressources : List (Option Ressource) := []

/-- The ressource at a place, if it was not destroyed. -/
def State.live (s : State) (i : Nat) : Option Ressource := s.ressources[i]?.join

/-- What happens to a ressource. A ressource is named by its place. -/
inductive Event where
  | construct (p_size : Nat) (p_typeName : String)
  | nextValue (i : Nat) (now : Int)
  | destroy (i : Nat)

/-- `Ressource::nextValue` with its counting. -/
def nextValue (now : Int) (g : GlobalCounters) (r : Ressource) : GlobalCounters × Ressource :=
  let data := r.v.headD []
  let v := Json.insert "timestamp" (.int now) data :: r.v
  let g := g.countAdd "values_count"
  if v.length > r.size then
    (g.countDel "values_count" (v.length - r.size), { r with v := v.take r.size })
  else (g, { r with v })

/-- One event. Nothing is called on a ressource that is gone. -/
def step (s : State) : Event → State
  | .construct p_size p_typeName =>
      { globalCounters := s.globalCounters.countAdd "ressource"
        ressources := s.ressources ++ [some { typeName := p_typeName, size := p_size }] }
  | .nextValue i now =>
      match s.live i with
      | some r =>
          let (g, r) := nextValue now s.globalCounters r
          { globalCounters := g, ressources := s.ressources.set i (some r) }
      | none => s
  | .destroy i =>
      match s.live i with
      | some _ =>
          { globalCounters := s.globalCounters.countDel "ressource" 1
            ressources := s.ressources.set i none }
      | none => s

/-- The samples that a place holds. -/
def held (r : Option Ressource) : Nat := (r.map (fun r => r.v.length)).getD 0

/-- The samples that the live ressources hold. -/
def State.total (s : State) : Nat := (s.ressources.map held).sum

/-- The ressource is the one that `Ressource.nextValue` gives. -/
theorem nextValue_snd (now : Int) (g : GlobalCounters) (r : Ressource) :
    (nextValue now g r).2 = r.nextValue now := by
  unfold nextValue Ressource.nextValue
  dsimp only
  split
  · rfl
  · rename_i h
    rw [List.take_of_length_le (Nat.le_of_not_gt h)]

end Counting

end WatchedAgent.Model
