import WatchedAgent.Proofs.Ownership

/-!
# `WatchedAgent.Proofs.Lifetimes`: whose PID it is

A recorded process is asked for by its PID alone: it runs when `/proc/<pid>` exists. Next to
the world of `Ownership` a `Lived` world numbers the processes the kernel starts, and
remembers which process had a PID when the PID came into the main processes of a service.

`Honest` says that a main process is reported as running only when the process under its
PID is the one remembered. `honest_iff` shows which runs are honest throughout: those in
which the kernel never starts a process under the PID of a main process.
-/

set_option autoImplicit false

namespace WatchedAgent.Proofs

open WatchedAgent.Lib
open WatchedAgent.Lib.Run
open WatchedAgent.Model

namespace Lifetimes

/-- The world, the number of processes started since, the one that last ran under each PID,
and for the PID of a main process the one that was recorded. -/
structure Lived where
  world : World
  started : Nat := 0
  birth : Nat → Nat := fun _ => 0
  seen : Nat → Nat := fun _ => 0

/-- A step of the agent, or a change of the system in which the processes with the PIDs of
`reused` ended and other ones got their PIDs. -/
inductive Step where
  | change (os : Snapshot) (reused : Nat → Bool)
  | socketFind
  | systemdFind
  | status (j : Nat)

/-- The event of a step. -/
def Step.event : Step → Event
  | .change os _ => .change os
  | .socketFind => .socketFind
  | .systemdFind => .systemdFind
  | .status j => .status j

/-- The PIDs of the main processes of all services. -/
def mainPids (m : ServicesManager) : List Nat :=
  m.services.flatMap (fun s => s.mainProcess.map Process.pid)

/-- Does a new process run under the PID after the change? -/
def isNew (w : Lived) (os : Snapshot) (reused : Nat → Bool) (pid : Nat) : Bool :=
  os.alive pid && (!w.world.os.alive pid || reused pid)

/-- One step. The kernel numbers the processes it starts, and the agent remembers the
process of a PID when it records it. -/
def step (env : Env) (w : Lived) (e : Step) : Lived :=
  let world := w.world.step env e.event
  match e with
  | .change os reused =>
      { w with
          world
          started := w.started + 1
          birth := fun pid => if isNew w os reused pid then w.started + 1 else w.birth pid }
  | _ =>
      { w with
          world
          seen := fun pid =>
            if (mainPids w.world.mgr).contains pid then w.seen pid else w.birth pid }

/-- The agent reports the process as running: the element of the status document says so,
or its sockets count for `haveSocket`. -/
def Reported (os : OsState) (p : Process) : Prop :=
  (∃ isBlackout, (Service.processStatus os isBlackout p).status = "ok") ∨
    ∃ id, (p.getStatus os && p.haveSocket id) = true

/-- A main process is reported as running only while the recorded process runs. -/
def Honest (w : Lived) : Prop :=
  ∀ s ∈ w.world.mgr.services, ∀ p ∈ s.mainProcess, Reported w.world.os.toOsState p →
    w.seen p.pid = w.birth p.pid

/-- No process starts under the PID of a main process. -/
def NoReuse (w : Lived) : Step → Prop
  | .change os reused => ∀ pid ∈ mainPids w.world.mgr, isNew w os reused pid = false
  | _ => True

/-- The report depends on the PID alone. -/
theorem reported_iff (os : OsState) (p : Process) : Reported os p ↔ os.alive p.pid = true := by
  constructor
  · rintro (⟨isBlackout, h⟩ | ⟨id, h⟩)
    · by_contra hdead
      have hstatus : p.getStatus os = false := by simpa [Process.getStatus] using hdead
      unfold Service.processStatus at h
      rw [hstatus] at h
      have hfailed : Service.failedText isBlackout = "ok" := h
      cases isBlackout <;> exact absurd hfailed (by decide)
    · exact (Bool.and_eq_true_iff.mp h).1
  · intro h
    have hstatus : p.getStatus os = true := h
    left
    refine ⟨false, ?_⟩
    unfold Service.processStatus
    rw [if_pos hstatus]

/-- The stamps are numbers of processes started. A PID that is not of a main process has
no recorded process of its own. -/
structure Inv (w : Lived) : Prop where
  seen : ∀ pid, w.seen pid ≤ w.started
  birth : ∀ pid, w.birth pid ≤ w.started
  honest : ∀ pid ∈ mainPids w.world.mgr, w.world.os.alive pid = true → w.seen pid = w.birth pid

theorem honest_iff_mainPids {w : Lived} : Honest w ↔
    ∀ pid ∈ mainPids w.world.mgr, w.world.os.alive pid = true → w.seen pid = w.birth pid := by
  unfold Honest mainPids
  simp only [reported_iff]
  constructor
  · intro h pid hpid
    obtain ⟨s, hs, hmem⟩ := List.mem_flatMap.mp hpid
    obtain ⟨p, hp, rfl⟩ := List.mem_map.mp hmem
    exact h s hs p hp
  · intro h s hs p hp
    exact h p.pid (List.mem_flatMap.mpr ⟨s, hs, List.mem_map_of_mem hp⟩)

/-- A step of the agent records the processes that have their PIDs at this moment. -/
theorem inv_agent {w : Lived} (h : Inv w) {world : World} (hos : world.os = w.world.os) :
    Inv { w with
      world
      seen := fun pid =>
        if (mainPids w.world.mgr).contains pid then w.seen pid else w.birth pid } where
  seen := by
    intro pid
    dsimp only
    split
    · exact h.seen pid
    · exact h.birth pid
  birth := h.birth
  honest := by
    intro pid _ halive
    dsimp only at halive ⊢
    split
    · rename_i hold
      exact h.honest pid (List.contains_iff_mem.mp hold) (hos ▸ halive)
    · rfl

theorem inv_step (env : Env) {w : Lived} {e : Step} (h : Inv w) (hgood : NoReuse w e) :
    Inv (step env w e) := by
  cases e with
  | socketFind => exact inv_agent h rfl
  | systemdFind => exact inv_agent h rfl
  | status j => exact inv_agent h rfl
  | change os reused =>
      refine ⟨fun pid => Nat.le_succ_of_le (h.seen pid), fun pid => ?_, fun pid hpid halive => ?_⟩
      · show (if isNew w os reused pid then w.started + 1 else w.birth pid) ≤ w.started + 1
        split
        · exact Nat.le_refl _
        · exact Nat.le_succ_of_le (h.birth pid)
      · -- No new process has the PID, so the old one runs, and it did before.
        have hold := hgood pid hpid
        have hbefore : w.world.os.alive pid = true := by
          have halive : os.alive pid = true := halive
          unfold isNew at hold
          rw [halive, Bool.true_and, Bool.or_eq_false_iff] at hold
          simpa using hold.1
        show w.seen pid = if isNew w os reused pid then w.started + 1 else w.birth pid
        rw [hold]
        exact h.honest pid hpid hbefore

/-- A process started under the PID of a main process is taken for the recorded one. -/
theorem not_honest_step (env : Env) {w : Lived} {e : Step} (h : Inv w) (hbad : ¬ NoReuse w e) :
    ¬ Honest (step env w e) := by
  cases e with
  | socketFind => exact absurd trivial hbad
  | systemdFind => exact absurd trivial hbad
  | status j => exact absurd trivial hbad
  | change os reused =>
      intro hhonest
      refine hbad fun pid hpid => ?_
      by_contra hnew
      have hnew : isNew w os reused pid = true := by simpa using hnew
      have halive : os.alive pid = true := (Bool.and_eq_true_iff.mp hnew).1
      have heq : w.seen pid = if isNew w os reused pid then w.started + 1 else w.birth pid :=
        honest_iff_mainPids.mp hhonest pid hpid halive
      rw [if_pos hnew] at heq
      have hle := h.seen pid
      omega

end Lifetimes

open Lifetimes

/-- Throughout a run a main process is reported as running only while the recorded process
runs, if and only if the kernel starts no process under the PID of a main process. -/
theorem honest_iff (env : Env) (world : World) (run : List Step) :
    Always (step env) Honest { world } run ↔ Meets (step env) NoReuse { world } run := by
  refine always_iff_meets (I := Inv) ?_ (fun _ _ => inv_step env)
    (fun _ _ => not_honest_step env) _ run ?_
  · exact fun w h => honest_iff_mainPids.mpr h.honest
  · exact ⟨fun _ => Nat.le_refl 0, fun _ => Nat.le_refl 0, fun _ _ _ => rfl⟩

/-- Another program has PID 10, and the sockets are gone. -/
def otherProgram : Snapshot :=
  Snapshot.ofProcs [(10, { exe := some "/bin/bar", stat := "10 (bar) S 1" })] {} (by decide)
    (by decide)

/-- The unit is detected. Its process ends, and another program gets the PID: the service is
reported as running. -/
theorem not_honest_reuse :
    ¬ Always (step simpleUnits) Honest { world := { os := beforeRestart } }
      [.systemdFind, .change otherProgram (fun _ => true), .status 0] := by
  intro h
  have hhonest := honest_iff_mainPids.mp h.2.2.2 10 (by decide) (by decide)
  exact absurd hhonest (by decide)

end WatchedAgent.Proofs
