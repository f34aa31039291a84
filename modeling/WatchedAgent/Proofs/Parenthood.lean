import WatchedAgent.Lib.Run
import WatchedAgent.Proofs.ManagerOps

/-!
# `WatchedAgent.Proofs.Parenthood`: how a process becomes a subprocess

Two functions record a subprocess. `handleSubProcess` does when some service lists the
parent's PID. `addMainProcess` does when a main process has the parent's PID, and it turns
the main processes whose parent is the new one into subprocesses.

A process of a configuration file has PID 0 until it is found, and 0 is also what
`getPPID` answers for a process without a parent in `/proc`. `realParents_addSubProcess_iff`
and `realParents_addMainProcess_iff` say when the two functions record a process whose
parent is not there. `parenthood_iff` is about runs that load configuration files, visit
processes, take units and build status documents, each at any moment: every step records
by real parenthood, if and only if no step meets a process with parent PID 0 where a
placeholder answers to it.
-/

set_option autoImplicit false

namespace WatchedAgent.Proofs

open WatchedAgent.Lib
open WatchedAgent.Lib.Run
open WatchedAgent.Model
open WatchedAgent.Model.ServicesManager

/-- Every subprocess of `s'` that `s` did not list as one has a parent PID other than 0,
and `s'` lists the parent. -/
def RealParents (os : OsState) (s s' : Service) : Prop :=
  ∀ p ∈ s'.subProcess, p.pid ∉ s.subProcess.map Process.pid →
    p.getPPID os ≠ 0 ∧ p.getPPID os ∈ s'.pids

/-! ### The two functions -/

section Service
variable (os : OsState) (s : Service)

/-- Without new subprocesses there is nothing to check. -/
theorem realParents_of_subset {s' : Service}
    (h : ∀ n ∈ s'.subProcess.map Process.pid, n ∈ s.subProcess.map Process.pid) :
    RealParents os s s' := by
  intro p hp hnew
  exact absurd (h p.pid (List.mem_map_of_mem hp)) hnew

/-- A child whose parent the service lists is recorded by real parenthood, unless the
parent PID is 0. -/
theorem realParents_addSubProcess_iff (p : Process) (hnew : p.pid ∉ s.subProcess.map Process.pid)
    (hparent : p.getPPID os ∈ s.pids) :
    RealParents os s (s.addSubProcess p) ↔ p.getPPID os ≠ 0 := by
  have hadd : (s.addSubProcess p).subProcess = s.subProcess ++ [p] := by
    unfold Service.addSubProcess
    rw [if_neg (by simpa using hnew)]
  have hlisted : p.getPPID os ∈ (s.addSubProcess p).pids :=
    (Service.mem_pids_addSubProcess s p).mpr (.inl hparent)
  unfold RealParents
  rw [hadd]
  constructor
  · intro h
    exact (h p (by simp) hnew).1
  · intro hne q hq hqnew
    rcases List.mem_append.mp hq with hq | hq
    · exact absurd (List.mem_map_of_mem hq) hqnew
    · rw [List.mem_singleton] at hq
      subst hq
      exact ⟨hne, hlisted⟩

/-- The subprocesses after a list of `addSubProcess` calls are old ones and those of the
calls. -/
theorem mem_subProcess_foldl {q : Process} (ps : List Process)
    (h : q ∈ (ps.foldl Service.addSubProcess s).subProcess) : q ∈ s.subProcess ∨ q ∈ ps := by
  induction ps generalizing s with
  | nil => exact .inl h
  | cons p ps ih =>
      rw [List.foldl_cons] at h
      rcases ih (s.addSubProcess p) h with h | h
      · unfold Service.addSubProcess at h
        split at h
        · exact .inl h
        · rcases List.mem_append.mp h with h | h
          · exact .inl h
          · rw [List.mem_singleton] at h
            exact .inr (h ▸ List.mem_cons_self)
      · exact .inr (List.mem_cons_of_mem p h)

/-- `addMainProcess` records by real parenthood, unless the process has parent PID 0 and a
main process has PID 0. -/
theorem realParents_addMainProcess_iff (p : Process)
    (hnew : p.pid ∉ s.subProcess.map Process.pid) :
    RealParents os s (s.addMainProcess os p)
      ↔ ¬ (p.pid ≠ 0 ∧ p.getPPID os = 0 ∧ 0 ∈ s.mainProcess.map Process.pid) := by
  rcases Service.addMainProcess_cases os s p with
    ⟨hpid, hparent, hadd⟩ | ⟨hpid, hparent, hadd⟩ | ⟨hpid, hadd⟩
  · -- The process becomes a subprocess, because a main process has its parent PID.
    rw [hadd, realParents_addSubProcess_iff os s p hnew (List.mem_append_left _ hparent)]
    constructor
    · intro hne h
      exact hne h.2.1
    · intro h hzero
      exact h ⟨hpid, hzero, hzero ▸ hparent⟩
  · -- The new subprocesses are children of the process, which is a main process now.
    refine iff_of_true ?_ ?_
    · intro q hq hqnew
      have hchild : q.getPPID os = p.pid := by
        rw [hadd] at hq
        rcases mem_subProcess_foldl s _ hq with hq | hq
        · exact absurd (List.mem_map_of_mem hq) hqnew
        · simpa using (List.mem_filter.mp hq).2
      rw [hchild]
      exact ⟨hpid, (Service.mem_pids_addMainProcess os s p).mpr (.inr rfl)⟩
    · intro h
      exact hparent (h.2.1 ▸ h.2.2)
  · -- A process of a configuration file becomes a main process.
    refine iff_of_true ?_ (fun h => h.1 hpid)
    refine realParents_of_subset os s (fun n hn => ?_)
    rw [hadd] at hn
    exact hn

/-- `updateMainProcess` records by real parenthood, unless the process has parent PID 0
and a main process that stays has PID 0. -/
theorem realParents_updateMainProcess_iff (p : Process)
    (hnew : p.pid ∉ s.subProcess.map Process.pid) :
    RealParents os s (s.updateMainProcess os p) ↔ ¬ (p.pid ≠ 0 ∧ p.getPPID os = 0 ∧
      0 ∈ (s.withoutOutdated os p).mainProcess.map Process.pid) :=
  realParents_addMainProcess_iff os (s.withoutOutdated os p) p hnew

/-- A merge with a service of one process records like `updateMainProcess`. -/
theorem realParents_updateFrom_iff {add : Service} {p : Process} (hmain : add.mainProcess = [p]) :
    RealParents os s (s.updateFrom os add) ↔ RealParents os s (s.updateMainProcess os p) := by
  have hsub : (s.updateFrom os add).subProcess = (s.updateMainProcess os p).subProcess := by
    rw [Service.updateFrom_eq, Service.updateMainProcess_eq,
      ← Service.withProcesses_of_singleton os s add hmain]
  have hpids : (s.updateFrom os add).pids = (s.updateMainProcess os p).pids := by
    rw [Service.pids_updateFrom, Service.updateMainProcess_eq,
      ← Service.withProcesses_of_singleton os s add hmain]
  unfold RealParents
  rw [hsub, hpids]

/-- Filling the name caches records nothing. -/
theorem realParents_cached_iff (s' : Service) :
    RealParents os s (cached os s') ↔ RealParents os s s' := by
  unfold RealParents
  rw [pids_cached]
  show (∀ p ∈ s'.subProcess.map (Service.cacheNames os), _) ↔ _
  simp only [List.forall_mem_map, pid_cacheNames, Process.getPPID]

end Service

/-! ### The steps -/

/-- A step that changes the services, with the moment of the system it happens at. A pass
of the socket detector is a sequence of visits, and one of the systemd detector is a
sequence of units. The system may change between two of them. -/
inductive Act where
  | load (os : OsState) (host : String) (ids : String → Nat) (cfg : Service.Config)
  | visit (env : Env) (os : OsState) (socks : List Socket) (pid : Nat)
  | unit (env : Env) (os : OsState) (small : String)
  | status (env : Env) (os : OsState) (j : Nat)

namespace Act

/-- The moment of the system. -/
def os : Act → OsState
  | load os .. => os
  | visit _ os .. => os
  | unit _ os _ => os
  | status _ os _ => os

/-- The step on the manager. A configuration file whose sockets cannot be read adds no
service. -/
def step (m : ServicesManager) : Act → ServicesManager
  | load os host ids cfg =>
      { m with services := m.services ++ (Service.ofConfig os host ids cfg).toList }
  | visit env os socks pid => SocketDetector.visit env os socks m pid
  | unit env os small => SystemdDetector.addUnit env os m small
  | status env os j => afterStatus env os m j

end Act

/-- The step records subprocesses by real parenthood only, in every service. -/
def ByParenthood (m : ServicesManager) (a : Act) : Prop :=
  ∀ (k : Nat) (s' : Service), (Act.step m a).services[k]? = some s' →
    RealParents a.os ((m.services[k]?).getD {}) s'

/-- A process with parent PID 0 meets a placeholder in a service it is added to: one that
is not replaced by the process. -/
def MeetsPlaceholder (os : OsState) (s : Service) (pid : Nat) : Prop :=
  pid ≠ 0 ∧ os.ppid pid = 0 ∧
    0 ∈ (s.withoutOutdated os (Process.ofPid os pid)).mainProcess.map Process.pid

/-- No placeholder answers to the parent PID 0 of the process of the step. A visit asks
all services for the parent. A unit and a status request ask the service they add the
process to. -/
def NoPlaceholderParent (m : ServicesManager) : Act → Prop
  | .load .. => True
  | .visit _ os _ pid => ¬ (m.havePID pid = false ∧ os.ppid pid = 0 ∧ m.havePID 0 = true)
  | .unit env os small =>
      let pid := os.bus.execMainPID (SystemdDetector.objectPath small)
      m.havePID pid = false → (Process.ofPid os pid).baseName ≠ "" →
        ∀ k s, m.mergeTarget os (enhance env os (SystemdDetector.newService env os small
          (Process.ofPid os pid))) = some k → m.services[k]? = some s →
          ¬ MeetsPlaceholder os s pid
  | .status _ os j => ∀ s, m.services[j]? = some s → ∀ pid, learned os s = some pid →
      ¬ MeetsPlaceholder os s pid

section Step
variable (m : ServicesManager)

/-- A PID the manager does not know is no subprocess of a service. -/
theorem not_mem_subPids_of_unknown {m : ServicesManager} {pid : Nat} {s : Service}
    (h : m.havePID pid = false) (hs : s ∈ m.services) :
    pid ∉ s.subProcess.map Process.pid :=
  fun hmem => not_mem_pids_of_unknown h hs (List.mem_append_right _ hmem)

/-- Without a change nothing is recorded. -/
theorem realParents_self (os : OsState) (s : Service) : RealParents os s s :=
  realParents_of_subset os s (fun _ h => h)

/-- Where one service is updated, that service decides. -/
theorem byParenthood_iff_of_modify {a : Act} {k : Nat} {f : Service → Service}
    (h : (Act.step m a).services = m.services.modify k f) :
    ByParenthood m a ↔ ∀ s, m.services[k]? = some s → RealParents a.os s (f s) := by
  unfold ByParenthood
  rw [h]
  constructor
  · intro hall s hs
    have hk := hall k (f s) (by rw [List.getElem?_modify, hs]; simp)
    rw [hs] at hk
    exact hk
  · intro hone j s' hs'
    -- A service at another place is as before.
    rw [List.getElem?_modify] at hs'
    obtain ⟨s, hs, rfl⟩ := Option.map_eq_some_iff.mp hs'
    rw [hs]
    dsimp only [Option.getD_some]
    split
    · rename_i hjk
      subst hjk
      exact hone s hs
    · exact realParents_self a.os s

/-- Where the first match is updated, that service decides. -/
theorem byParenthood_iff_of_modifyFirst {a : Act} {test : Service → Bool} {f : Service → Service}
    (h : (Act.step m a).services = modifyFirst test f m.services) :
    ByParenthood m a ↔ ∀ s, m.services.find? test = some s → RealParents a.os s (f s) := by
  cases hfind : m.services.findIdx? test with
  | none =>
      have hany := (findIdx?_eq_none_iff_any test m.services).mp hfind
      have hnone : m.services.find? test = none :=
        List.find?_eq_none.mpr (List.any_eq_false.mp hany)
      -- No service matches: it is as if a place behind the last one was updated.
      have hsame : (Act.step m a).services = m.services.modify m.services.length f := by
        rw [h, modifyFirst_of_not_any _ _ _ hany, List.modify_eq_self (Nat.le_refl _)]
      rw [byParenthood_iff_of_modify m hsame, hnone]
      simp
  | some k =>
      have hat : m.services.find? test = m.services[k]? := by
        rw [List.find?_eq_bind_findIdx?_getElem?, hfind]
        rfl
      rw [byParenthood_iff_of_modify m (h.trans (modifyFirst_eq_modify test f _ hfind)), hat]

/-- A new service without subprocesses records nothing. -/
theorem byParenthood_of_append {a : Act} {new : List Service}
    (h : (Act.step m a).services = m.services ++ new) (hnew : ∀ s ∈ new, s.subProcess = []) :
    ByParenthood m a := by
  intro k s' hs'
  rw [h] at hs'
  by_cases hk : k < m.services.length
  · rw [List.getElem?_append_left hk] at hs'
    rw [hs']
    exact realParents_self a.os s'
  · rw [List.getElem?_append_right (by omega)] at hs'
    intro p hp
    rw [hnew s' (List.mem_of_getElem? hs')] at hp
    exact absurd hp (by simp)

/-- A service that is added records by the service it is merged into. -/
theorem byParenthood_iff_of_addService {a : Act} {env : Env} {serv : Service} {p : Process}
    (h : a.step m = m.addService env a.os serv) (hmain : serv.mainProcess = [p])
    (hsub : serv.subProcess = []) (hunknown : m.havePID p.pid = false) :
    ByParenthood m a ↔ ∀ k s, m.mergeTarget a.os (enhance env a.os serv) = some k →
      m.services[k]? = some s → ¬ (p.pid ≠ 0 ∧ p.getPPID a.os = 0 ∧
        0 ∈ (s.withoutOutdated a.os p).mainProcess.map Process.pid) := by
  have hserv := services_addService env a.os m serv
  rw [← h] at hserv
  cases htarget : m.mergeTarget a.os (enhance env a.os serv) with
  | none =>
      rw [htarget] at hserv
      refine iff_of_true (byParenthood_of_append m hserv ?_) (fun k s hk => absurd hk (by simp))
      intro s hs
      rw [List.mem_singleton] at hs
      rw [hs, subProcess_enhance, hsub]
  | some k =>
      rw [htarget] at hserv
      rw [byParenthood_iff_of_modify m hserv]
      have hadd : (enhance env a.os serv).mainProcess = [p] := by rw [mainProcess_enhance, hmain]
      -- The merge records what `updateMainProcess` records.
      have hone : ∀ s, m.services[k]? = some s →
          (RealParents a.os s (s.updateFrom a.os (enhance env a.os serv)) ↔
            ¬ (p.pid ≠ 0 ∧ p.getPPID a.os = 0 ∧
              0 ∈ (s.withoutOutdated a.os p).mainProcess.map Process.pid)) := by
        intro s hs
        rw [realParents_updateFrom_iff a.os s hadd, realParents_updateMainProcess_iff a.os s p
          (not_mem_subPids_of_unknown hunknown (List.mem_of_getElem? hs))]
      constructor
      · intro hall j s hj hs
        rw [Option.some.injEq] at hj
        subst hj
        exact (hone s hs).mp (hall s hs)
      · intro hall s hs
        exact (hone s hs).mpr (hall k s rfl hs)

/-- A visit records by real parenthood, unless an unknown process has parent PID 0 and
some service lists a placeholder. -/
theorem byParenthood_visit_iff (env : Env) (os : OsState) (socks : List Socket) (pid : Nat) :
    ByParenthood m (.visit env os socks pid)
      ↔ NoPlaceholderParent m (.visit env os socks pid) := by
  show _ ↔ ¬ (m.havePID pid = false ∧ os.ppid pid = 0 ∧ m.havePID 0 = true)
  have hppid : (Process.ofPid os pid).getPPID os = os.ppid pid := by
    rw [Process.getPPID, Process.pid_ofPid]
  rcases SocketDetector.visit_cases env os socks m pid with
    ⟨hknown, hserv⟩ | ⟨hpid, hparent, hserv⟩ | ⟨hpid, hparent, -, hsame⟩
      | ⟨hpid, hparent, -, it, -, hadd⟩
  · -- A known process records no subprocess.
    rw [byParenthood_iff_of_modifyFirst m (a := .visit env os socks pid) hserv]
    refine iff_of_true (fun s _ => ?_) (fun h => by rw [hknown] at h; exact absurd h.1 (by simp))
    refine realParents_of_subset os s (fun n hn => ?_)
    rw [SocketDetector.subPids_updateKnown] at hn
    exact hn
  · -- The child of a known process, in the first service that lists the parent PID.
    have hany : m.services.any (fun s => s.havePID (os.ppid pid)) = true := hparent
    obtain ⟨s, hs⟩ : ∃ s, m.services.find? (fun s => s.havePID (os.ppid pid)) = some s :=
      Option.isSome_iff_exists.mp (List.find?_isSome.mpr (by simpa using hany))
    have hlisted : os.ppid pid ∈ s.pids := Service.havePID_iff.mp (by
      simpa using List.find?_some hs)
    have hnew := not_mem_subPids_of_unknown hpid (List.mem_of_find?_eq_some hs)
    have hone := realParents_addSubProcess_iff os s (Process.ofPid os pid)
      (by rw [Process.pid_ofPid]; exact hnew) (by rw [hppid]; exact hlisted)
    rw [hppid] at hone
    rw [byParenthood_iff_of_modifyFirst m (a := .visit env os socks pid) hserv, hs]
    constructor
    · intro hall h
      exact hone.mp (hall s rfl) h.2.1
    · intro hno s' hs'
      rw [Option.some.injEq] at hs'
      subst hs'
      refine hone.mpr (fun hzero => hno ⟨hpid, hzero, ?_⟩)
      rw [← hzero]
      exact hparent
  · refine iff_of_true ?_ ?_
    · intro k s' hs'
      rw [show Act.step m (.visit env os socks pid) = m from hsame] at hs'
      rw [hs']
      exact realParents_self _ s'
    · intro h
      rw [← h.2.1, hparent] at h
      exact absurd h.2.2 (by simp)
  · -- The parent is unknown, so with parent PID 0 no service lists a placeholder.
    have hno : ¬ (m.havePID pid = false ∧ os.ppid pid = 0 ∧ m.havePID 0 = true) := by
      intro h
      rw [← h.2.1, hparent] at h
      exact absurd h.2.2 (by simp)
    rw [byParenthood_iff_of_addService m (a := .visit env os socks pid) hadd
      (SocketDetector.mainProcess_newService env os socks _ it)
      (SocketDetector.subProcess_newService env os socks _ it)
      (by rw [SocketDetector.pid_detected]; exact hpid)]
    refine iff_of_true (fun k s _ hs h => ?_) hno
    have hzero : os.ppid pid = 0 := by
      have hget := h.2.1
      rw [Process.getPPID, SocketDetector.pid_detected] at hget
      exact hget
    have hlisted : 0 ∈ s.pids :=
      (Service.pids_withoutOutdated_sublist os s _).subset (List.mem_append_left _ h.2.2)
    exact hno ⟨hpid, hzero, havePID_iff.mpr ⟨s, List.mem_of_getElem? hs, hlisted⟩⟩

/-- A unit records by real parenthood, unless its process meets a placeholder. -/
theorem byParenthood_unit_iff (env : Env) (os : OsState) (small : String) :
    ByParenthood m (.unit env os small) ↔ NoPlaceholderParent m (.unit env os small) := by
  unfold NoPlaceholderParent
  dsimp only
  generalize hpid : os.bus.execMainPID (SystemdDetector.objectPath small) = pid
  have hcases := SystemdDetector.addUnit_cases env os m small
  rw [hpid] at hcases
  rcases hcases with ⟨hknown, hserv⟩ | ⟨-, hname, hsame⟩ | ⟨hunknown, hname, hadd⟩
  · -- A known main PID: only the handler of its service changes.
    rw [byParenthood_iff_of_modifyFirst m (a := .unit env os small) hserv]
    refine iff_of_true (fun s _ => ?_) (fun h => by rw [hknown] at h; exact absurd h (by simp))
    refine realParents_of_subset os s (fun n hn => ?_)
    unfold SystemdDetector.attach at hn
    split at hn
    · exact hn
    · exact hn
  · refine iff_of_true ?_ (fun _ h => absurd hname h)
    intro k s' hs'
    rw [show Act.step m (.unit env os small) = m from hsame] at hs'
    rw [hs']
    exact realParents_self _ s'
  · have hlists := SystemdDetector.lists_newService env os small (Process.ofPid os pid)
    rw [byParenthood_iff_of_addService m (a := .unit env os small) hadd hlists.1 hlists.2.1
      (by rw [Process.pid_ofPid]; exact hunknown)]
    unfold MeetsPlaceholder Process.getPPID
    rw [Process.pid_ofPid]
    exact ⟨fun h _ _ => h, fun h => h hunknown hname⟩

/-- A status request records by real parenthood, unless a learned process meets a
placeholder. -/
theorem byParenthood_status_iff (env : Env) (os : OsState) (j : Nat) :
    ByParenthood m (.status env os j) ↔ NoPlaceholderParent m (.status env os j) := by
  unfold NoPlaceholderParent
  dsimp only
  rcases afterStatus_cases env os m j with ⟨hnone, hsame | hserv⟩ | ⟨s, pid, hs, hpid, hserv⟩
  · refine iff_of_true ?_ (fun s hs pid hpid => by
      rw [hnone s hs] at hpid
      exact absurd hpid (by simp))
    intro k s' hs'
    rw [show Act.step m (.status env os j) = m from hsame] at hs'
    rw [hs']
    exact realParents_self _ s'
  · rw [byParenthood_iff_of_modify m (a := .status env os j) hserv]
    refine iff_of_true (fun s _ => ?_) (fun s hs pid hpid => by
      rw [hnone s hs] at hpid
      exact absurd hpid (by simp))
    exact (realParents_cached_iff os s s).mpr (realParents_self os s)
  · -- The learned process goes to the service of the request.
    have hnew : (Process.ofPid os pid).pid ∉ s.subProcess.map Process.pid := by
      rw [Process.pid_ofPid]
      intro hmem
      exact (learned_spec os hpid).2.2 (List.mem_append_right _ hmem)
    have hone : RealParents os s (cached os (s.updateMainProcess os (Process.ofPid os pid)))
        ↔ ¬ MeetsPlaceholder os s pid := by
      rw [realParents_cached_iff, realParents_updateMainProcess_iff os s _ hnew]
      unfold MeetsPlaceholder Process.getPPID
      rw [Process.pid_ofPid]
    rw [byParenthood_iff_of_modify m (a := .status env os j) hserv]
    constructor
    · intro hall s' hs' pid' hpid'
      rw [hs, Option.some.injEq] at hs'
      subst hs'
      rw [hpid, Option.some.injEq] at hpid'
      subst hpid'
      exact hone.mp (hall s hs)
    · intro hall s' hs'
      rw [hs, Option.some.injEq] at hs'
      subst hs'
      exact hone.mpr (hall s hs pid hpid)

end Step

/-! ### Runs -/

/-- A configuration file gives main processes only. -/
theorem subProcess_ofConfig {os : OsState} {host : String} {ids : String → Nat}
    {cfg : Service.Config} {s : Service} (h : Service.ofConfig os host ids cfg = some s) :
    s.subProcess = [] := by
  have hsocks : ∀ (socks : List Socket) (s : Service),
      (socks.foldl Service.setSocket s).subProcess = s.subProcess := by
    intro socks
    induction socks with
    | nil => intro s; rfl
    | cons sock socks ih =>
        intro s
        rw [List.foldl_cons, ih, Service.subProcess_setSocket]
  -- With PID 0 a process never becomes a subprocess.
  have hprocs : ∀ (paths : List String) (s : Service), (paths.foldl (fun s path =>
      Service.addMainProcess os s (Process.ofPath path)) s).subProcess = s.subProcess := by
    intro paths
    induction paths with
    | nil => intro s; rfl
    | cons path paths ih =>
        intro s
        rw [List.foldl_cons, ih]
        rcases Service.addMainProcess_cases os s (Process.ofPath path) with
          ⟨hpid, -, -⟩ | ⟨hpid, -, -⟩ | ⟨-, hadd⟩
        · exact absurd (Process.pid_ofPath path) hpid
        · exact absurd (Process.pid_ofPath path) hpid
        · rw [hadd]
  unfold Service.ofConfig at h
  simp only [Option.bind_eq_bind, Option.bind_eq_some_iff, Option.pure_def, Option.some.injEq] at h
  obtain ⟨socks, -, rfl⟩ := h
  have hhost : ∀ s : Service, (Service.setDefaultHost host s).subProcess = s.subProcess := by
    intro s
    unfold Service.setDefaultHost
    split <;> rfl
  rw [hhost, hprocs]
  cases cfg.host with
  | none =>
      cases cfg.uniqName with
      | none => exact hsocks socks _
      | some key => exact hsocks socks _
  | some host =>
      cases cfg.uniqName with
      | none => exact hsocks socks _
      | some key => exact hsocks socks _

/-- A step records by real parenthood, if and only if no placeholder answers to the parent
PID of its process. -/
theorem byParenthood_iff (m : ServicesManager) (a : Act) :
    ByParenthood m a ↔ NoPlaceholderParent m a := by
  cases a with
  | load os host ids cfg =>
      refine iff_of_true (byParenthood_of_append m rfl ?_) trivial
      intro s hs
      exact subProcess_ofConfig (Option.mem_toList.mp hs)
  | visit env os socks pid => exact byParenthood_visit_iff m env os socks pid
  | unit env os small => exact byParenthood_unit_iff m env os small
  | status env os j => exact byParenthood_status_iff m env os j

/-- In every run, all steps record subprocesses by real parenthood, if and only if no step
meets a process with parent PID 0 where a placeholder answers to it. -/
theorem parenthood_iff (m : ServicesManager) (run : List Act) :
    Meets Act.step ByParenthood m run ↔ Meets Act.step NoPlaceholderParent m run :=
  meets_congr byParenthood_iff m run

/-! ### The first process of the system -/

/-- A service file that names an executable. -/
def configured : Service.Config := { process := some ["/bin/foo"] }

/-- The system with `init` only, before the configured process starts. -/
def onlyInit : OsState :=
  OsState.ofProcs [(1, { exe := some "/sbin/init", stat := "1 (init) S 0" })]

/-- A run that loads the service file and visits `init` records it as a subprocess of the
configured service, whose placeholder has PID 0. -/
theorem not_parenthood_init : ¬ Meets Act.step ByParenthood {}
    [.load onlyInit "host" (fun _ => 0) configured,
      .visit {} onlyInit [{ id := 7, type := "tcp", source := { port := 80 } }] 1] := by
  intro h
  have hinit := h.2.1 0 _ rfl (Process.ofPid onlyInit 1) (by decide) (by decide)
  exact absurd hinit.1 (by decide)

end WatchedAgent.Proofs
