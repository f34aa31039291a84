import WatchedAgent.Lib.Run
import WatchedAgent.Model.Ressource
import Mathlib.Logic.Function.Basic

/-!
# `WatchedAgent.Model.Polling`: incremental polls of all series

`servicesManager::doGetAllJson` takes the time of the reply and then reads the series one
after the other: of each service the log parsers and the collectors, and at last the
collectors of the system. A poller passes the `timestamp` of the last reply as `since`. The
series change while a reply is built, so each turn of the loops is a step of its own.

A reply is kept as what it holds at the place (`Slot`) of each series. The entries of the
log parsers of a service are one array in the source, and their member `source` tells them
apart. `parseLog` keeps its entries as `Ressource` keeps its samples, so both kinds of
series have the type `Ressource` here.
-/

set_option autoImplicit false

namespace WatchedAgent.Model

open WatchedAgent.Lib (Json)

namespace Ressource

/-- A recording at the time `now`: a `nextValue` with its `setProperty` calls, or an entry
that `parseLog` inserts. -/
def record (now : Int) (props : List (String × Json)) (r : Ressource) : Ressource :=
  props.foldl (fun r p => r.setProperty p.1 p.2) (r.nextValue now)

/-- The sample a recording leaves, on top of the newest sample `old`. -/
def newSample (now : Int) (props : List (String × Json)) (old : Sample) : Sample :=
  props.foldl (fun s p => Json.insert p.1 p.2 s) (Json.insert "timestamp" (.int now) old)

end Ressource

namespace Polling

/-- A series of a service. -/
inductive SeriesKey where
  | log (file : String)
  | metric (collector res : String)
  deriving DecidableEq

/-- A series of the agent. A service is named by its place in the list. -/
inductive SeriesId where
  | service (i : Nat) (key : SeriesKey)
  | system (collector res : String)
  deriving DecidableEq

/-- The place of a series in a reply. A service is named by its `getID`. -/
inductive Slot where
  | service (id : String) (key : SeriesKey)
  | system (collector res : String)
  deriving DecidableEq

/-- A service with its series, in the order of the maps that hold them. -/
structure ServiceSeries where
  id : String
  keys : List SeriesKey
  nodup : keys.Nodup

/-- The services and the collectors of the system. -/
structure Agent where
  services : List ServiceSeries
  system : List (String × String)
  nodup : system.Nodup

/-- A turn of the loops of `doGetAllJson`: `res["services"][id] = obj`, or a series is
read. -/
inductive Turn where
  | clear (id : String)
  | read (series : SeriesId) (slot : Slot)

/-- The turns for the `i`-th service. -/
def serviceTurns (i : Nat) (s : ServiceSeries) : List Turn :=
  .clear s.id :: s.keys.map (fun key => .read (.service i key) (.service s.id key))

/-- The turns for the services from the `i`-th on. -/
def servicesTurns : Nat → List ServiceSeries → List Turn
  | _, [] => []
  | i, s :: ss => serviceTurns i s ++ servicesTurns (i + 1) ss

/-- All turns of a reply. -/
def turns (agent : Agent) : List Turn :=
  servicesTurns 0 agent.services
    ++ agent.system.map (fun e => .read (.system e.1 e.2) (.system e.1 e.2))

/-- A reply that is being built. -/
structure Poll where
  since : Int
  timestamp : Int
  todo : List Turn
  series : Slot → List Sample

/-- A reply that was sent. -/
structure Reply where
  timestamp : Int
  series : Slot → List Sample

/-- The agent, the clock, the stored samples, and the poller: what it passes as `since`,
its running request, and the replies it got. -/
structure State where
  agent : Agent
  clock : Nat
  store : SeriesId → Ressource
  since : Int := -1
  poll : Option Poll := none
  replies : List Reply := []

/-- Does the agent have that series? -/
def Agent.has (agent : Agent) : SeriesId → Prop
  | .service i key => ∃ s, agent.services[i]? = some s ∧ key ∈ s.keys
  | .system collector res => (collector, res) ∈ agent.system

instance (agent : Agent) : DecidablePred agent.has
  | .service i key =>
      match h : agent.services[i]? with
      | none => isFalse (by simp [Agent.has, h])
      | some s => decidable_of_iff (key ∈ s.keys) (by simp [Agent.has, h])
  | .system collector res => inferInstanceAs (Decidable ((collector, res) ∈ agent.system))

/-- The steps of the clock, of the threads that record, of the detection, and of the
poller. -/
inductive Move where
  | tick (d : Nat)
  | record (series : SeriesId) (props : List (String × Json))
  | addService (s : ServiceSeries)
  | poll
  | turn

/-- A turn of a running request. -/
def Poll.turn (store : SeriesId → Ressource) (p : Poll) (todo : List Turn) : Turn → Poll
  | .clear id =>
      { p with
          todo
          series := fun slot =>
            match slot with
            | .service id' _ => if id' = id then [] else p.series slot
            | .system _ _ => p.series slot }
  | .read series slot =>
      { p with
          todo
          series := Function.update p.series slot ((store series).getHistory p.since) }

/-- One step. A second request of the poller waits for the first, and the services do not
change under a running one. -/
def step (s : State) : Move → State
  | .tick d => { s with clock := s.clock + d }
  | .record series props =>
      if s.agent.has series then
        { s with
            store := Function.update s.store series ((s.store series).record s.clock props) }
      else s
  | .addService service =>
      if s.poll.isNone then
        { s with agent := { s.agent with services := s.agent.services ++ [service] } }
      else s
  | .poll =>
      if s.poll.isNone then
        { s with
            poll := some {
              since := s.since
              timestamp := s.clock
              todo := turns s.agent
              series := fun _ => [] } }
      else s
  | .turn =>
      match s.poll with
      | none => s
      | some p =>
          match p.todo with
          -- The reply is sent, and the poller takes its timestamp.
          | [] =>
              { s with
                  since := p.timestamp
                  poll := none
                  replies := s.replies ++ [{ timestamp := p.timestamp, series := p.series }] }
          | t :: todo => { s with poll := some (p.turn s.store todo t) }

end Polling

end WatchedAgent.Model
