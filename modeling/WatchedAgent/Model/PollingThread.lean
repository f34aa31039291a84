import WatchedAgent.Lib.Run

/-!
# `WatchedAgent.Model.PollingThread`: a polling thread and its destructor

`Collector::startThread` and `logParser::startThread` start the same loop, and the
destructors of both classes end it in the same way. The two parties share the flag
`active`, the mutex `lock` and the timer. A step is one of the actions the source takes
between two points where the other party can run; a party that has to wait stays where it
is.
-/

set_option autoImplicit false

namespace WatchedAgent.Model

namespace PollingThread

/-- Where the thread stands. Under the lock it is at `retest`, `collecting` or
`releasing`. -/
inductive ThreadPc where
  /-- `while(active)` -/
  | test
  /-- `std::unique_lock<std::mutex> locker(lock)` -/
  | locking
  /-- `if (active)` -/
  | retest
  /-- In `collect()`, or `parseLog()`. -/
  | collecting
  /-- The end of the block, or its exception handler. -/
  | releasing
  /-- `timer.wait_for` -/
  | waiting
  | ended
  deriving DecidableEq

/-- Where the destruction stands. The lock is held from `clearing` on. -/
inductive DtorPc where
  /-- The object is in use. -/
  | alive
  /-- The destructor of the derived class runs. -/
  | derived
  /-- `std::unique_lock<std::mutex> locker(lock)` -/
  | locking
  /-- `if (active) { active=false;` -/
  | clearing
  /-- `timer.kill(); }` -/
  | killing
  /-- `my_thread.join()` -/
  | joining
  | ended
  deriving DecidableEq

/-- The two parties. -/
inductive Party where
  | thread
  | destructor
  deriving DecidableEq

/-- The state the parties share. `late` records that `collect()` was called when the
destruction had begun. -/
structure State where
  active : Bool
  lock : Option Party
  terminate : Bool
  thread : ThreadPc
  destructor : DtorPc
  late : Bool
  deriving DecidableEq

/-- A collector whose thread was just started. -/
def started : State where
  active := true
  lock := none
  terminate := false
  thread := .test
  destructor := .alive
  late := false

/-- The next step of the thread. -/
def threadStep (s : State) : State :=
  match s.thread with
  | .test => { s with thread := if s.active then .locking else .ended }
  | .locking =>
      if s.lock = none then { s with thread := .retest, lock := some .thread } else s
  | .retest =>
      if s.active then
        { s with thread := .collecting, late := s.late || s.destructor != .alive }
      else { s with thread := .releasing }
  | .collecting => { s with thread := .releasing }
  | .releasing => { s with thread := .waiting, lock := none }
  -- Before the time is over, only `kill` ends the wait.
  | .waiting => if s.terminate then { s with thread := .test } else s
  | .ended => s

/-- The time of the wait is over. -/
def timeoutStep (s : State) : State :=
  if s.thread = .waiting then { s with thread := .test } else s

/-- The next step of the destruction. -/
def destructorStep (s : State) : State :=
  match s.destructor with
  | .alive => { s with destructor := .derived }
  | .derived => { s with destructor := .locking }
  | .locking =>
      if s.lock = none then { s with destructor := .clearing, lock := some .destructor } else s
  | .clearing =>
      if s.active then { s with destructor := .killing, active := false }
      else { s with destructor := .joining }
  | .killing => { s with destructor := .joining, terminate := true }
  -- The lock is released after the join only.
  | .joining => if s.thread = .ended then { s with destructor := .ended, lock := none } else s
  | .ended => s

/-- Who takes the next step. -/
inductive Move where
  | thread
  | timeout
  | destructor
  deriving DecidableEq

/-- One step of an interleaving. -/
def step (s : State) : Move → State
  | .thread => threadStep s
  | .timeout => timeoutStep s
  | .destructor => destructorStep s

end PollingThread

end WatchedAgent.Model
