import WatchedAgent.Lib.Run
import WatchedAgent.Proofs.ManagerOps

/-!
# `WatchedAgent.Proofs.Coverage`: what a pass of the socket detector finds

A pass of `socketDetector::find` over a snapshot, from any state of the manager.

* `find_forgets_nothing`: every process that holds a scanned socket and is not
  black-listed is known afterwards, and no live PID and no source is forgotten.
* `find_covers_iff`: the source of a scanned socket is an entry afterwards exactly when it
  was one before, or some visit looks at the socket (`LooksAt`).

The two results differ because a visit of a process whose parent is known records the
process and looks at none of its sockets. `not_find_covers_child` is the smallest such
case: a parent with one socket and its child with another.

Both come from the step lemmas of one visit, `havePID_visit` and `haveSource_visit_iff`.
-/

set_option autoImplicit false

namespace WatchedAgent.Proofs

open WatchedAgent.Lib
open WatchedAgent.Lib.Run
open WatchedAgent.Model
open WatchedAgent.Model.ServicesManager
open WatchedAgent.Model.SocketDetector

/-- The process has the inode among its open descriptors. -/
def Holds (os : OsState) (pid id : Nat) : Prop := id ∈ (Process.openSockets os pid).getD []

instance (os : OsState) (pid id : Nat) : Decidable (Holds os pid id) :=
  inferInstanceAs (Decidable (id ∈ (Process.openSockets os pid).getD []))

/-- A live process that holds the inode, and that the black list does not match. -/
structure IsHolder (env : Env) (os : OsState) (pid id : Nat) : Prop where
  alive : os.alive pid = true
  accepted : matchList (Process.ofPid os pid) env.socketBlackList = false
  holds : Holds os pid id

section Visit
variable (env : Env) (os : OsState) (socks : List Socket) (m : ServicesManager) (pid : Nat)

/-- The process a visit builds for a PID holds its open sockets. -/
theorem haveSocket_detected (id : Nat) :
    (detected os pid).haveSocket id = true ↔ Holds os pid id := by
  unfold detected Holds
  cases hopen : Process.openSockets os pid with
  | none =>
      -- No descriptor directory: the list stays empty.
      have hsame : (Process.ofPid os pid).setSockets os = Process.ofPid os pid := by
        unfold Process.setSockets
        rw [Process.pid_ofPid, hopen]
      rw [hsame]
      simp [Process.haveSocket]
  | some ids =>
      rw [Process.haveSocket_setSockets os _ ids (by rw [Process.pid_ofPid, hopen])]
      rfl

/-- A process with open descriptors is alive. -/
theorem alive_of_holds {id : Nat} (h : Holds os pid id) : os.alive pid = true := by
  unfold Holds Process.openSockets at h
  unfold OsState.alive
  cases hentry : os.entry pid with
  | none => simp [hentry] at h
  | some e => rfl

/-- The first scanned socket that a process holds is a scanned socket it holds. -/
theorem holds_of_firstHeld {it : Socket} (h : firstHeld os socks pid = some it) :
    it ∈ socks ∧ Holds os pid it.id := by
  have hheld := List.find?_some h
  exact ⟨List.mem_of_find?_eq_some h, (haveSocket_detected os pid it.id).mp hheld⟩

/-- Without a first scanned socket, the process holds none. -/
theorem not_holds_of_firstHeld (h : firstHeld os socks pid = none) {i : Socket}
    (hi : i ∈ socks) : ¬ Holds os pid i.id := by
  intro hholds
  have hheld := (haveSocket_detected os pid i.id).mpr hholds
  exact List.find?_eq_none.mp h i hi hheld

/-- The sources of a service built for a visited process: those of the scanned sockets it
holds. -/
theorem mem_sources_newService_iff {it : Socket} (hit : firstHeld os socks pid = some it)
    {source : String} :
    source ∈ (newService env os socks (detected os pid) it).sources
      ↔ ∃ i ∈ socks, Holds os pid i.id ∧ i.getSource = source := by
  obtain ⟨hmem, hheld⟩ := holds_of_firstHeld os socks pid hit
  have halive : (detected os pid).getStatus os = true := by
    rw [getStatus_detected]
    exact alive_of_holds os pid hheld
  rw [mem_sources_newService]
  simp only [halive, true_and, haveSocket_detected]
  constructor
  · intro h
    rcases h with rfl | h
    · exact ⟨it, hmem, hheld, rfl⟩
    · exact h
  · exact .inr

/-! ### PIDs -/

/-- A merge or a new service keeps the live PIDs, and knows the main processes added. -/
theorem havePID_addService {serv : Service} {n : Nat} (hn : os.alive n = true)
    (h : m.havePID n = true ∨ n ∈ serv.mainProcess.map Process.pid) :
    (m.addService env os serv).havePID n = true := by
  rw [havePID_iff] at h ⊢
  have hadd : (enhance env os serv).mainProcess = serv.mainProcess :=
    mainProcess_enhance env os serv
  rcases addService_merge_or_store env os m serv with ⟨test, hany, hserv⟩ | hserv
  · rw [hserv]
    rcases h with h | h
    · exact exists_mem_modifyFirst _ _ (fun i _ _ hi =>
        Service.mem_pids_updateFrom_of_alive os i _ hn (.inl hi)) h
    · -- The service that takes it in gets its main processes.
      obtain ⟨i, -, -, hmem⟩ := exists_mem_modifyFirst_of_any test
        (fun i => i.updateFrom os (enhance env os serv)) hany
      refine ⟨_, hmem, Service.mem_pids_updateFrom_of_alive os i _ hn (.inr ?_)⟩
      rw [hadd]
      exact h
  · rw [hserv]
    rcases h with ⟨i, hi, hpid⟩ | h
    · exact ⟨i, by simp [hi], hpid⟩
    · refine ⟨enhance env os serv, by simp, ?_⟩
      rw [pids_enhance]
      exact List.mem_append_left _ h

/-- A visit forgets no live PID. -/
theorem havePID_visit {n : Nat} (hn : os.alive n = true) (h : m.havePID n = true) :
    (visit env os socks m pid).havePID n = true := by
  rcases visit_cases env os socks m pid with
    ⟨-, hserv⟩ | ⟨-, -, hserv⟩ | ⟨-, -, -, hsame⟩ | ⟨-, -, -, it, -, hadd⟩
  · -- A known process: its service keeps its PIDs.
    rw [havePID_iff] at h ⊢
    rw [hserv]
    exact exists_mem_modifyFirst _ _ (fun s _ _ hs => by rw [pids_updateKnown]; exact hs) h
  · rw [havePID_iff] at h ⊢
    rw [hserv]
    exact exists_mem_modifyFirst _ _
      (fun s _ _ hs => (Service.mem_pids_addSubProcess s _).mpr (.inl hs)) h
  · rw [hsame]
    exact h
  · rw [hadd]
    exact havePID_addService env os m hn (.inl h)

/-- After the visit of a process that holds a scanned socket and is not black-listed, the
process is known. -/
theorem havePID_visit_of_holder {i : Socket} (hi : i ∈ socks) (h : IsHolder env os pid i.id) :
    (visit env os socks m pid).havePID pid = true := by
  rcases visit_cases env os socks m pid with
    ⟨hknown, -⟩ | ⟨-, hparent, hserv⟩ | ⟨-, -, hno, -⟩ | ⟨-, -, -, it, -, hadd⟩
  · exact havePID_visit env os socks m pid h.alive hknown
  · rw [havePID_iff, hserv]
    -- Its parent is known, so it becomes a subprocess there.
    have hany : m.services.any (fun s => s.havePID (os.ppid pid)) = true := hparent
    obtain ⟨s, -, -, hmem⟩ := exists_mem_modifyFirst_of_any _
      (fun s : Service => s.addSubProcess (Process.ofPid os pid)) hany
    refine ⟨_, hmem, (Service.mem_pids_addSubProcess s _).mpr (.inr ?_)⟩
    rw [Process.pid_ofPid]
  · -- It is not ignored: the black list lets it pass, and it holds a scanned socket.
    rcases hno with hblack | hnone
    · rw [h.accepted] at hblack
      exact absurd hblack (by simp)
    · exact absurd h.holds (not_holds_of_firstHeld os socks pid hnone hi)
  · rw [hadd]
    refine havePID_addService env os m h.alive (.inr ?_)
    rw [mainProcess_newService, List.map_singleton, pid_detected, List.mem_singleton]

/-! ### Sources -/

/-- A merge or a new service adds the sources of the service, and loses none. -/
theorem haveSource_addService_iff {serv : Service} {source : String} :
    (m.addService env os serv).HaveSource source
      ↔ m.HaveSource source ∨ source ∈ serv.sources := by
  unfold HaveSource
  rcases addService_merge_or_store env os m serv with ⟨test, hany, hserv⟩ | hserv
  · -- A merge: the sources of the one service grow by those added.
    rw [hserv, exists_mem_modifyFirst_iff test _ _ (fun i _ _ hi =>
      (Service.mem_sources_updateFrom os i _).mpr (.inl hi))]
    simp only [Service.mem_sources_updateFrom, sources_enhance]
    constructor
    · intro h
      rcases h with h | ⟨i, hi, h | h⟩
      · exact .inl h
      · exact .inl ⟨i, List.mem_of_find?_eq_some hi, h⟩
      · exact .inr h
    · intro h
      rcases h with h | h
      · exact .inl h
      · obtain ⟨i, hi⟩ := Option.isSome_iff_exists.mp (List.find?_isSome.mpr (by simpa using hany))
        exact .inr ⟨i, hi, .inr h⟩
  · rw [hserv]
    simp only [List.mem_append, List.mem_singleton, or_and_right, exists_or, exists_eq_left,
      sources_enhance]

/-- The visit looks at a scanned socket with the source: the process is known, and after
it read its descriptors a main process of its service holds the socket, or the process is
new and holds the socket itself. -/
def LooksAt (source : String) : Prop :=
  (∃ s, m.getService pid = some s ∧
    ∃ i ∈ socks, (s.setSocketsOf os pid).haveSocket os i.id = true ∧ i.getSource = source) ∨
  (m.havePID pid = false ∧ m.havePID (os.ppid pid) = false ∧
    matchList (Process.ofPid os pid) env.socketBlackList = false ∧
    ∃ i ∈ socks, Holds os pid i.id ∧ i.getSource = source)

/-- The sources after a visit are those before it, and those it looks at. -/
theorem haveSource_visit_iff {source : String} :
    (visit env os socks m pid).HaveSource source
      ↔ m.HaveSource source ∨ LooksAt env os socks m pid source := by
  -- Of an unknown process no service reads the descriptors.
  have hunknown : m.havePID pid = false → m.getService pid = none := by
    intro h
    unfold getService
    rw [List.find?_eq_none]
    exact List.any_eq_false.mp h
  rcases visit_cases env os socks m pid with
    ⟨hknown, hserv⟩ | ⟨hpid, hparent, hserv⟩ | ⟨hpid, hparent, hno, hsame⟩
      | ⟨hpid, hparent, hblack, it, hit, hadd⟩
  · -- A known process: its service gets the scanned sockets its main processes hold.
    unfold HaveSource LooksAt getService
    rw [hserv, exists_mem_modifyFirst_iff _ _ _ (fun s _ _ hs =>
      (mem_sources_updateKnown os s pid socks).mpr (.inl hs))]
    simp only [mem_sources_updateKnown, hknown, Bool.true_eq_false, false_and, or_false]
    constructor
    · intro h
      rcases h with h | ⟨s, hs, h | h⟩
      · exact .inl h
      · exact .inl ⟨s, List.mem_of_find?_eq_some hs, h⟩
      · exact .inr ⟨s, hs, h⟩
    · intro h
      rcases h with h | ⟨s, hs, h⟩
      · exact .inl h
      · exact .inr ⟨s, hs, .inr h⟩
  · -- The child of a known process: none of its sockets is looked at.
    have hnot : ¬ LooksAt env os socks m pid source := by
      unfold LooksAt
      rw [hunknown hpid, hparent]
      simp
    have hkeep : (visit env os socks m pid).services.map Service.sources
        = m.services.map Service.sources := by
      rw [hserv]
      exact map_modifyFirst_of_eq _ _ _ _ (fun s _ _ => by
        unfold Service.sources
        rw [Service.sockets_addSubProcess])
    have hsame : (visit env os socks m pid).HaveSource source ↔ m.HaveSource source := by
      have hmap : ∀ m : ServicesManager,
          m.HaveSource source ↔ ∃ l ∈ m.services.map Service.sources, source ∈ l := by
        intro m
        simp [HaveSource]
      rw [hmap, hkeep, ← hmap]
    rw [hsame, or_iff_left hnot]
  · have hnot : ¬ LooksAt env os socks m pid source := by
      unfold LooksAt
      rw [hunknown hpid]
      intro h
      rcases h with ⟨s, hs, -⟩ | ⟨-, -, hblack, i, hi, hholds, -⟩
      · exact absurd hs (by simp)
      · rcases hno with h | h
        · rw [hblack] at h
          exact absurd h (by simp)
        · exact not_holds_of_firstHeld os socks pid h hi hholds
    rw [hsame, or_iff_left hnot]
  · -- A new process: the service built for it lists the scanned sockets it holds.
    rw [hadd, haveSource_addService_iff, mem_sources_newService_iff env os socks pid hit]
    refine or_congr_right ?_
    unfold LooksAt
    rw [hunknown hpid]
    simp [hpid, hparent, hblack]

end Visit

/-! ### A pass -/

section Pass
variable (env : Env) (os : Snapshot) (m : ServicesManager)

/-- The walk is the run of the visits. -/
theorem walk_eq_exec (os : OsState) (socks : List Socket) (pids : List Nat) :
    walk env os socks m pids = exec (visit env os socks) m pids := rfl

/-- A pass that scans some socket walks over the listing. -/
theorem find_eq_walk {os : OsState} {socks : List Socket} (h : scan env os = some socks)
    (hne : socks ≠ []) : find env os m = walk env os socks m os.pids := by
  unfold find
  rw [h]
  exact if_neg hne

/-- A pass does nothing, or it walks over the listing with the scanned sockets. -/
theorem find_cases (os : OsState) : find env os m = m ∨
    ∃ socks, scan env os = some socks ∧ find env os m = walk env os socks m os.pids := by
  cases hscan : scan env os with
  | none =>
      left
      unfold find
      rw [hscan]
  | some socks =>
      by_cases hne : socks = []
      · left
        unfold find
        rw [hscan]
        exact if_pos hne
      · exact .inr ⟨socks, rfl, find_eq_walk env m hscan hne⟩

/-- After a pass, every process that holds a scanned socket and is not black-listed is
known, and every live PID and every source that was known still is. -/
theorem find_forgets_nothing :
    (∀ socks, scan env os.toOsState = some socks → ∀ i ∈ socks, ∀ pid,
      IsHolder env os.toOsState pid i.id → (find env os.toOsState m).havePID pid = true) ∧
    (∀ pid, os.alive pid = true → m.havePID pid = true →
      (find env os.toOsState m).havePID pid = true) ∧
    (∀ source, m.HaveSource source → (find env os.toOsState m).HaveSource source) := by
  refine ⟨?_, ?_, ?_⟩
  · -- The visit of the holder records it, and no other visit forgets it.
    intro socks hscan i hi pid hholder
    have hlisted : pid ∈ os.pids := (os.mem_pids pid).mpr hholder.alive
    rw [find_eq_walk env m hscan (List.ne_nil_of_mem hi), walk_eq_exec]
    exact exec_of_mem m os.pids
      (fun m b _ h => havePID_visit env os.toOsState socks m b hholder.alive h) hlisted
      (fun m => havePID_visit_of_holder env os.toOsState socks m pid hi hholder)
  · intro pid halive hpid
    rcases find_cases env m os.toOsState with hfind | ⟨socks, -, hfind⟩
    · rw [hfind]
      exact hpid
    · rw [hfind, walk_eq_exec]
      exact exec_keeps m os.pids
        (fun m b _ h => havePID_visit env os.toOsState socks m b halive h) hpid
  · intro source hsource
    rcases find_cases env m os.toOsState with hfind | ⟨socks, -, hfind⟩
    · rw [hfind]
      exact hsource
    · rw [hfind, walk_eq_exec]
      exact exec_keeps m os.pids
        (fun m b _ h => (haveSource_visit_iff env os.toOsState socks m b).mpr (.inl h)) hsource

/-- Every scanned socket that has a holder has its source in some service. -/
def AllCovered (m' : ServicesManager) : Prop :=
  ∀ socks, scan env os.toOsState = some socks → ∀ i ∈ socks,
    (∃ pid, IsHolder env os.toOsState pid i.id) → m'.HaveSource i.getSource

/-- Every scanned socket that has a holder has its source in some service before the pass,
or some visit of the pass looks at it. -/
def AllLookedAt : Prop :=
  ∀ socks, scan env os.toOsState = some socks → ∀ i ∈ socks,
    (∃ pid, IsHolder env os.toOsState pid i.id) → m.HaveSource i.getSource ∨
      ∃ pre pid post, os.pids = pre ++ pid :: post ∧
        LooksAt env os.toOsState socks (walk env os.toOsState socks m pre) pid i.getSource

/-- A pass covers every scanned socket that has a holder, if and only if every such socket
was covered before or is looked at. -/
theorem find_covers_iff :
    AllCovered env os (find env os.toOsState m) ↔ AllLookedAt env os m := by
  unfold AllCovered AllLookedAt
  refine forall_congr' fun socks => forall_congr' fun hscan => forall_congr' fun i =>
    forall_congr' fun hi => forall_congr' fun _ => ?_
  rw [find_eq_walk env m hscan (List.ne_nil_of_mem hi), walk_eq_exec]
  exact exec_iff_or_exists (P := fun m => m.HaveSource i.getSource)
    (fun m pid => haveSource_visit_iff env os.toOsState socks m pid) m os.pids

end Pass

/-! ### A parent and its child -/

/-- Two processes, 10 and its child 11, with a listening socket each. -/
def parentAndChild : Snapshot :=
  Snapshot.ofProcs
    [(10, { exe := some "/bin/parent", stat := "10 (parent) S 1",
            fd := some ["socket:[100]"] }),
      (11, { exe := some "/bin/child", stat := "11 (child) S 10",
             fd := some ["socket:[101]"] })]
    { net := fun type => if type = "tcp" then
        ["0: 00000000:0050 00000000:0000 0A 0:0 0:0 0 0 0 100",
          "1: 00000000:0051 00000000:0000 0A 0:0 0:0 0 0 0 101"] else [] }
    (by decide) (by decide)

/-- The socket the parent holds. -/
def parentSocket : Socket := { id := 100, type := "tcp", source := { port := 80 } }

/-- The socket the child holds. -/
def childSocket : Socket := { id := 101, type := "tcp", source := { port := 81 } }

/-- A pass over a parent and its child, from the empty manager, knows both. -/
theorem find_forgets_nothing_parentAndChild :
    (find {} parentAndChild.toOsState {}).havePID 10 = true ∧
      (find {} parentAndChild.toOsState {}).havePID 11 = true := by
  have hfound := (find_forgets_nothing {} parentAndChild {}).1 [parentSocket, childSocket]
    (by decide)
  exact ⟨hfound parentSocket (by decide) 10 ⟨by decide, by decide, by decide⟩,
    hfound childSocket (by decide) 11 ⟨by decide, by decide, by decide⟩⟩

/-- The socket of the child is in no service after a pass from the empty manager. -/
theorem not_find_covers_child :
    ¬ AllCovered {} parentAndChild (find {} parentAndChild.toOsState {}) := by
  intro h
  have hcovered := h [parentSocket, childSocket] (by decide) childSocket (by decide)
    ⟨11, by decide, by decide, by decide⟩
  exact absurd hcovered (by decide)

end WatchedAgent.Proofs
