import WatchedAgent.Lib.Run
import WatchedAgent.Proofs.ManagerOps

/-!
# `WatchedAgent.Proofs.Ownership`: each process in one service

The agent next to a changing system: the system changes, the two detectors make a pass,
and a status request builds the document of a service. `Owned` says that no PID other than
0 is listed twice in the services taken together.

The detectors look for a PID in the whole manager before they record it, so their passes
keep `Owned` (`owned_socketFind`, `owned_systemdFind`). A status request may learn a PID
through the systemd handler, which looks in its own service only. `liveOnce_iff` is the
result: a live PID is listed once throughout a run from the empty manager, if and only if
no status request learns a PID that another service lists.
-/

set_option autoImplicit false

namespace WatchedAgent.Proofs

open WatchedAgent.Lib
open WatchedAgent.Lib.Run
open WatchedAgent.Model
open WatchedAgent.Model.ServicesManager

/-- The system and the manager. -/
structure World where
  os : Snapshot
  mgr : ServicesManager := {}

/-- A step of the agent, or of the system: processes start and exit. -/
inductive Event where
  | change (os : Snapshot)
  | socketFind
  | systemdFind
  | status (j : Nat)

/-- The step of an event. -/
def World.step (env : Env) (w : World) : Event → World
  | .change os => { w with os }
  | .socketFind => { w with mgr := SocketDetector.find env w.os.toOsState w.mgr }
  | .systemdFind => { w with mgr := SystemdDetector.find env w.os.toOsState w.mgr }
  | .status j => { w with mgr := afterStatus env w.os.toOsState w.mgr j }

/-- The PIDs of all services. -/
def allPids (m : ServicesManager) : List Nat := m.services.flatMap Service.pids

/-- Every PID of a live process is listed at most once. -/
def LiveOnce (w : World) : Prop :=
  ∀ n, n ≠ 0 → w.os.alive n = true → (allPids w.mgr).count n ≤ 1

/-- No PID other than 0 is listed twice. -/
def Owned (m : ServicesManager) : Prop := ∀ n, n ≠ 0 → (allPids m).count n ≤ 1

/-- A status request learns no PID that another service lists. -/
def Unheld (w : World) : Event → Prop
  | .status j => ∀ s, w.mgr.services[j]? = some s → ∀ pid, learned w.os.toOsState s = some pid →
      ∀ k s', k ≠ j → w.mgr.services[k]? = some s' → pid ∉ s'.pids
  | _ => True

/-! ### The detectors -/

/-- An unknown PID is not listed. -/
theorem count_allPids_of_unknown {m : ServicesManager} {n : Nat} (h : m.havePID n = false) :
    (allPids m).count n = 0 := by
  rw [List.count_eq_zero]
  intro hmem
  obtain ⟨s, hs, hn⟩ := List.mem_flatMap.mp hmem
  exact not_mem_pids_of_unknown h hs hn

section Detectors
variable (env : Env) (os : OsState) {m : ServicesManager}

/-- A service that is added lists its PIDs once more at most. -/
theorem count_allPids_addService_le (serv : Service) (n : Nat) :
    (allPids (m.addService env os serv)).count n ≤ (allPids m).count n + serv.pids.count n := by
  unfold allPids
  rw [services_addService]
  cases m.mergeTarget os (enhance env os serv) with
  | none =>
      show ((m.services ++ [enhance env os serv]).flatMap Service.pids).count n ≤ _
      exact Nat.le_of_eq (by
        rw [List.flatMap_append, List.count_append, List.flatMap_singleton, pids_enhance])
  | some k =>
      -- Only the service at the place `k` lists more, by the main processes added.
      refine count_flatMap_modify_le Service.pids n _ m.services k _ (fun s _ => ?_)
      have hmerge := Service.count_pids_updateFrom_le os s (enhance env os serv) n
      have hmain : (serv.mainProcess.map Process.pid).count n ≤ serv.pids.count n := by
        show _ ≤ (serv.mainProcess.map Process.pid ++ _).count n
        rw [List.count_append]
        omega
      rw [mainProcess_enhance] at hmerge
      omega

/-- A service built for an unknown process is added without a second listing. -/
theorem owned_addService {serv : Service} {pid : Nat} (h : Owned m) (hserv : serv.pids = [pid])
    (hunknown : m.havePID pid = false) : Owned (m.addService env os serv) := by
  intro n hn
  have hadd := count_allPids_addService_le env os (m := m) serv n
  rw [hserv] at hadd
  by_cases hpid : n = pid
  · subst hpid
    have hzero := count_allPids_of_unknown hunknown
    simp only [List.count_singleton_self] at hadd
    omega
  · have hold := h n hn
    rw [List.count_singleton, if_neg (by simpa using Ne.symm hpid)] at hadd
    omega

/-- A visit of the socket detector keeps the listings apart. -/
theorem owned_visit (socks : List Socket) (pid : Nat) (h : Owned m) :
    Owned (SocketDetector.visit env os socks m pid) := by
  rcases SocketDetector.visit_cases env os socks m pid with
    ⟨-, hserv⟩ | ⟨hunknown, -, hserv⟩ | ⟨-, -, -, hsame⟩ | ⟨hunknown, -, -, it, -, hadd⟩
  · -- A known process changes no list of PIDs.
    intro n hn
    have hold := h n hn
    have hcount := count_flatMap_modifyFirst_le Service.pids n (fun s => s.havePID pid)
      (SocketDetector.updateKnown os socks pid) m.services 0
      (fun s _ => by rw [SocketDetector.pids_updateKnown]; omega)
    show ((SocketDetector.visit env os socks m pid).services.flatMap Service.pids).count n ≤ 1
    rw [hserv]
    exact Nat.le_trans hcount hold
  · intro n hn
    -- The child is unknown to all services, so it is listed once afterwards.
    have hcount := count_flatMap_modifyFirst_le Service.pids n (fun s => s.havePID (os.ppid pid))
      (fun s => s.addSubProcess (Process.ofPid os pid)) m.services ([pid].count n) (fun s _ => by
        have hsub := Service.count_pids_addSubProcess_le s (Process.ofPid os pid) n
        rw [Process.pid_ofPid] at hsub
        exact hsub)
    show ((SocketDetector.visit env os socks m pid).services.flatMap Service.pids).count n ≤ 1
    rw [hserv]
    by_cases hpid : n = pid
    · subst hpid
      have hzero : (m.services.flatMap Service.pids).count n = 0 :=
        count_allPids_of_unknown hunknown
      simp only [List.count_singleton_self] at hcount
      omega
    · have hold : (m.services.flatMap Service.pids).count n ≤ 1 := h n hn
      rw [List.count_singleton, if_neg (by simpa using Ne.symm hpid)] at hcount
      omega
  · rw [hsame]
    exact h
  · rw [hadd]
    refine owned_addService env os h ?_ hunknown
    rw [SocketDetector.pids_newService, SocketDetector.pid_detected]

/-- A pass of the socket detector keeps the listings apart. -/
theorem owned_socketFind (h : Owned m) : Owned (SocketDetector.find env os m) := by
  unfold SocketDetector.find
  split
  · exact h
  · split
    · exact h
    · exact exec_keeps m os.pids (fun m pid _ h => owned_visit env os _ pid h) h

/-- A unit of the systemd detector keeps the listings apart. -/
theorem owned_addUnit (small : String) (h : Owned m) :
    Owned (SystemdDetector.addUnit env os m small) := by
  rcases SystemdDetector.addUnit_cases env os m small with
    ⟨-, hserv⟩ | ⟨-, -, hsame⟩ | ⟨hunknown, -, hadd⟩
  · -- A known main PID: the handler is set, and the lists stay.
    have hmap : (SystemdDetector.addUnit env os m small).services.map Service.pids
        = m.services.map Service.pids := by
      rw [hserv]
      refine map_modifyFirst_of_eq _ _ Service.pids m.services (fun s _ _ => ?_)
      unfold SystemdDetector.attach
      split <;> rfl
    intro n hn
    show ((SystemdDetector.addUnit env os m small).services.flatMap Service.pids).count n ≤ 1
    rw [List.flatMap_def, hmap, ← List.flatMap_def]
    exact h n hn
  · rw [hsame]
    exact h
  · rw [hadd]
    refine owned_addService env os h ?_ hunknown
    rw [SystemdDetector.pids_newService, Process.pid_ofPid]

/-- A pass of the systemd detector keeps the listings apart. -/
theorem owned_systemdFind (h : Owned m) : Owned (SystemdDetector.find env os m) := by
  unfold SystemdDetector.find
  split
  · exact h
  · exact SystemdDetector.walk_keeps env os (fun m small h => owned_addUnit env os small h) _ h

end Detectors

/-! ### The status requests -/

section Status
variable (env : Env) (os : OsState) (m : ServicesManager) (j : Nat)

/-- A status request that learns no PID of another service keeps the listings apart. -/
theorem owned_afterStatus (h : Owned m)
    (hunheld : ∀ s, m.services[j]? = some s → ∀ pid, learned os s = some pid →
      ∀ k s', k ≠ j → m.services[k]? = some s' → pid ∉ s'.pids) :
    Owned (afterStatus env os m j) := by
  rcases afterStatus_cases env os m j with ⟨-, hsame | hserv⟩ | ⟨s, pid, hs, hpid, hserv⟩
  · rw [hsame]
    exact h
  · intro n hn
    have hcount := count_flatMap_modify_le Service.pids n (cached os) m.services j 0
      (fun s _ => by rw [pids_cached]; omega)
    show ((afterStatus env os m j).services.flatMap Service.pids).count n ≤ 1
    rw [hserv]
    exact Nat.le_trans hcount (h n hn)
  · intro n hn
    have hcount := count_flatMap_modify_le Service.pids n
      (fun s => cached os (s.updateMainProcess os (Process.ofPid os pid))) m.services j
      ([pid].count n) (fun s _ => by
        have hadd := Service.count_pids_updateMainProcess_le os s (Process.ofPid os pid) n
        rw [Process.pid_ofPid] at hadd
        rw [pids_cached]
        exact hadd)
    show ((afterStatus env os m j).services.flatMap Service.pids).count n ≤ 1
    rw [hserv]
    by_cases hlearned : n = pid
    · -- No service lists the learned PID: not its own, and by assumption no other.
      have hzero : (m.services.flatMap Service.pids).count n = 0 := by
        rw [List.count_eq_zero]
        intro hmem
        obtain ⟨s', hs', hn'⟩ := List.mem_flatMap.mp hmem
        obtain ⟨k, hk⟩ := List.mem_iff_getElem?.mp hs'
        rw [hlearned] at hn'
        by_cases hkj : k = j
        · rw [hkj, hs, Option.some.injEq] at hk
          rw [← hk] at hn'
          exact (learned_spec os hpid).2.2 hn'
        · exact hunheld s hs pid hpid k s' hkj hk hn'
      rw [hlearned, List.count_singleton_self] at hcount
      rw [hlearned] at hzero ⊢
      omega
    · have hold : (m.services.flatMap Service.pids).count n ≤ 1 := h n hn
      rw [List.count_singleton, if_neg (by simpa using Ne.symm hlearned)] at hcount
      omega

/-- A status request that learns the PID of another service lists it twice. -/
theorem two_le_count_afterStatus {s s' : Service} {pid k : Nat} (hs : m.services[j]? = some s)
    (hpid : learned os s = some pid) (hkj : k ≠ j) (hk : m.services[k]? = some s')
    (hmem : pid ∈ s'.pids) : 2 ≤ (allPids (afterStatus env os m j)).count pid := by
  rcases afterStatus_cases env os m j with ⟨hnone, -⟩ | ⟨s₁, pid₁, hs₁, hpid₁, hserv⟩
  · rw [hnone s hs] at hpid
    exact absurd hpid (by simp)
  · obtain rfl : s = s₁ := by
      rw [hs, Option.some.injEq] at hs₁
      exact hs₁
    obtain rfl : pid = pid₁ := by
      rw [hpid, Option.some.injEq] at hpid₁
      exact hpid₁
    have hnew : (afterStatus env os m j).services[j]?
        = some (cached os (s.updateMainProcess os (Process.ofPid os pid))) := by
      rw [hserv, List.getElem?_modify, hs]
      simp
    have hold : (afterStatus env os m j).services[k]? = some s' := by
      rw [hserv, List.getElem?_modify, hk]
      simp [Ne.symm hkj]
    -- Its own service lists it now, and the other one as before.
    have hboth := count_add_count_le_flatMap Service.pids pid hnew hold (Ne.symm hkj)
    have hfirst :
        0 < (cached os (s.updateMainProcess os (Process.ofPid os pid))).pids.count pid := by
      rw [List.count_pos_iff, pids_cached]
      exact Service.mem_pids_updateMainProcess_of_alive os s _
        (.inr (Process.pid_ofPid os pid).symm)
    have hsecond : 0 < s'.pids.count pid := List.count_pos_iff.mpr hmem
    show 2 ≤ ((afterStatus env os m j).services.flatMap Service.pids).count pid
    omega

end Status

/-! ### Runs -/

/-- An event keeps the listings apart, unless a status request learns a PID that another
service lists. -/
theorem owned_step (env : Env) (w : World) (e : Event) (h : Owned w.mgr) (hunheld : Unheld w e) :
    Owned (w.step env e).mgr := by
  cases e with
  | change os => exact h
  | socketFind => exact owned_socketFind env w.os.toOsState h
  | systemdFind => exact owned_systemdFind env w.os.toOsState h
  | status j => exact owned_afterStatus env w.os.toOsState w.mgr j h hunheld

/-- A status request that learns a PID that another service lists breaks `LiveOnce`. -/
theorem not_liveOnce_step (env : Env) (w : World) (e : Event) (hheld : ¬ Unheld w e) :
    ¬ LiveOnce (w.step env e) := by
  cases e with
  | change os => exact absurd trivial hheld
  | socketFind => exact absurd trivial hheld
  | systemdFind => exact absurd trivial hheld
  | status j =>
      intro honce
      refine hheld ?_
      intro s hs pid hpid k s' hkj hk hmem
      -- The learned PID is live, and it would be listed twice.
      obtain ⟨hzero, halive, -⟩ := learned_spec w.os.toOsState hpid
      have htwo := two_le_count_afterStatus env w.os.toOsState w.mgr j hs hpid hkj hk hmem
      have hone := honce pid hzero halive
      have hsame : (w.step env (.status j)).mgr = afterStatus env w.os.toOsState w.mgr j := rfl
      rw [hsame] at hone
      omega

/-- Throughout a run from the empty manager every live PID is listed at most once, if and
only if no status request learns a PID that another service lists. -/
theorem liveOnce_iff (env : Env) (os : Snapshot) (run : List Event) :
    Always (World.step env) LiveOnce { os } run ↔ Meets (World.step env) Unheld { os } run := by
  refine always_iff_meets (I := fun w => Owned w.mgr) ?_ (owned_step env) ?_ _ run ?_
  · exact fun w h n hn _ => h n hn
  · exact fun w e _ hheld => not_liveOnce_step env w e hheld
  · intro n _
    exact Nat.zero_le 1

/-! ### A restart seen by the socket detector first -/

/-- The bus with one running unit, whose main process has the PID `pid`. -/
def oneUnit (pid : Nat) : Bus where
  haveBus := true
  introspect := [" <node name=\"foo.service\"/>"]
  execMainPID := fun _ => pid
  activeState := fun _ => some "active"
  subState := fun _ => some "running"
  type := fun _ => some "simple"
  restart := fun _ => some "no"

/-- The unit runs as process 10, without a socket. -/
def beforeRestart : Snapshot :=
  Snapshot.ofProcs [(10, { exe := some "/bin/foo", stat := "10 (foo) S 1" })]
    { bus := oneUnit 10 } (by decide) (by decide)

/-- The unit runs as process 20, which listens. -/
def afterRestart : Snapshot :=
  Snapshot.ofProcs
    [(20, { exe := some "/bin/foo", stat := "20 (foo) S 1", fd := some ["socket:[7]"] })]
    { bus := oneUnit 20
      net := fun type => if type = "tcp" then
        ["0: 00000000:0050 00000000:0000 0A 0:0 0:0 0 0 0 7"] else [] }
    (by decide) (by decide)

/-- An agent that takes every simple unit. -/
def simpleUnits : Env := { systemdWhiteList := [{ type := some "simple" }] }

/-- The unit is detected and restarts. The socket detector stores its new process as a
service of its own, and the status request of the unit's service adds it there too. -/
theorem not_liveOnce_restart :
    ¬ Always (World.step simpleUnits) LiveOnce { os := beforeRestart }
      [.systemdFind, .change afterRestart, .socketFind, .status 0] := by
  intro h
  have honce := h.2.2.2.2 20 (by decide) (by decide)
  exact absurd honce (by decide)

end WatchedAgent.Proofs
