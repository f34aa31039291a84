import WatchedAgent.Model.PollingThread

/-!
# `WatchedAgent.Model.DetectionThread`: the detection thread and the end of the manager

`servicesManager::startThreads` starts a loop around `find()`, and the destructor
`servicesManager::~servicesManager` ends it. The two parties share the flag `active` and
the timer. Unlike the threads of `PollingThread` they take no lock, and the loop makes its
first call before it tests `active`. The steps are cut as they are there.
-/

set_option autoImplicit false

namespace WatchedAgent.Model

namespace DetectionThread

open PollingThread (Move)

/-- Where the thread stands. -/
inductive ThreadPc where
  /-- About to call `find()`. -/
  | entering
  /-- In `find()`, or in the handler of its exception. -/
  | finding
  /-- `while (active` -/
  | test
  /-- `timer.wait_for` -/
  | waiting
  /-- `&& active)` -/
  | retest
  | ended
  deriving DecidableEq

/-- Where the destruction stands. -/
inductive DtorPc where
  /-- The manager is in use. -/
  | alive
  /-- `if (active) {` -/
  | test
  /-- `active=false;` -/
  | clearing
  /-- `timer.kill();` -/
  | killing
  /-- `my_thread.join();` -/
  | joining
  | ended
  deriving DecidableEq

/-- The state the parties share. `late` counts the calls of `find()` that were made after
`active` had been cleared. -/
structure State where
  active : Bool
  terminate : Bool
  thread : ThreadPc
  destructor : DtorPc
  late : Nat
  deriving DecidableEq

/-- A manager whose thread was just started. -/
def started : State where
  active := true
  terminate := false
  thread := .entering
  destructor := .alive
  late := 0

/-- The next step of the thread. -/
def threadStep (s : State) : State :=
  match s.thread with
  | .entering => { s with thread := .finding, late := if s.active then s.late else s.late + 1 }
  | .finding => { s with thread := .test }
  | .test => { s with thread := if s.active then .waiting else .ended }
  -- Before the time is over, only `kill` ends the wait. It then returns false.
  | .waiting => if s.terminate then { s with thread := .ended } else s
  | .retest => { s with thread := if s.active then .entering else .ended }
  | .ended => s

/-- The time of the wait is over. The wait returns whether the timer was killed meanwhile. -/
def timeoutStep (s : State) : State :=
  if s.thread = .waiting then { s with thread := if s.terminate then .ended else .retest }
  else s

/-- The next step of the destruction. -/
def destructorStep (s : State) : State :=
  match s.destructor with
  | .alive => { s with destructor := .test }
  | .test => { s with destructor := if s.active then .clearing else .ended }
  | .clearing => { s with destructor := .killing, active := false }
  | .killing => { s with destructor := .joining, terminate := true }
  | .joining => if s.thread = .ended then { s with destructor := .ended } else s
  | .ended => s

/-- One step of an interleaving. -/
def step (s : State) : Move → State
  | .thread => threadStep s
  | .timeout => timeoutStep s
  | .destructor => destructorStep s

end DetectionThread

end WatchedAgent.Model
