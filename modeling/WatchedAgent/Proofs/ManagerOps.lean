import WatchedAgent.Model.SocketDetector
import WatchedAgent.Model.Status
import WatchedAgent.Proofs.ServiceOps

/-!
# `WatchedAgent.Proofs.ManagerOps`: what one step of the manager can do

The inversion lemmas of the manager and of the socket detector. Every later result about
a pass goes through them.

* `enhance_keeps_lists`: the enhancers leave the sockets and the processes alone.
* `addService_cases`: a service is merged into the first stored one that passes a test, or
  stored.
* `visit_cases`: the four roles of a process: known, child, ignored or new.
* `mem_sources_associate` and `mainProcess_newService`: the services these roles build.
* `addUnit_cases` and `statusOf_cases`: the same for a systemd unit and for a status
  request, which adds a process when `learned` says so.
-/

set_option autoImplicit false

namespace WatchedAgent.Model

open WatchedAgent.Lib

/-! ### Enhancers -/

namespace ServicesManager

/-- The observables an enhancer cannot change. -/
theorem run_keeps_lists (call : SetterCall) (s : Service) :
    (call.run s).sockets = s.sockets ∧ (call.run s).mainProcess = s.mainProcess ∧
      (call.run s).subProcess = s.subProcess := by
  cases call <;> exact ⟨rfl, rfl, rfl⟩

theorem systemdEnhance_keeps_lists (os : OsState) (s : Service) :
    (systemdEnhance os s).sockets = s.sockets ∧
      (systemdEnhance os s).mainProcess = s.mainProcess ∧
      (systemdEnhance os s).subProcess = s.subProcess := by
  unfold systemdEnhance
  split
  · exact ⟨rfl, rfl, rfl⟩
  · split
    · exact ⟨rfl, rfl, rfl⟩
    · dsimp only
      split <;> exact ⟨rfl, rfl, rfl⟩

/-- No enhancer of the agent returns a service. -/
theorem enhance_cons (e : Enhancer) (es : List Enhancer) (env : Env) (os : OsState)
    (s : Service) (h : env.enhancers = e :: es) :
    enhance env os s = enhance { env with enhancers := es } os (e.enhance os s).1 := by
  unfold enhance
  rw [h, List.foldl_cons]
  cases e <;> rfl

/-- Calls of setters, one after the other, leave the sockets and the processes alone. -/
theorem foldl_run_keeps_lists (calls : List SetterCall) (s : Service) :
    (calls.foldl (fun s call => call.run s) s).sockets = s.sockets ∧
      (calls.foldl (fun s call => call.run s) s).mainProcess = s.mainProcess ∧
      (calls.foldl (fun s call => call.run s) s).subProcess = s.subProcess := by
  induction calls generalizing s with
  | nil => exact ⟨rfl, rfl, rfl⟩
  | cons call calls ih =>
      obtain ⟨h1, h2, h3⟩ := ih (call.run s)
      obtain ⟨g1, g2, g3⟩ := run_keeps_lists call s
      rw [List.foldl_cons]
      exact ⟨h1.trans g1, h2.trans g2, h3.trans g3⟩

/-- The enhancers leave the sockets and the processes alone. -/
theorem enhance_keeps_lists (env : Env) (os : OsState) (s : Service) :
    (enhance env os s).sockets = s.sockets ∧ (enhance env os s).mainProcess = s.mainProcess ∧
      (enhance env os s).subProcess = s.subProcess := by
  -- Neither class of enhancer writes the lists.
  have one : ∀ (e : Enhancer) (s : Service), (e.enhance os s).1.sockets = s.sockets ∧
      (e.enhance os s).1.mainProcess = s.mainProcess ∧
      (e.enhance os s).1.subProcess = s.subProcess := by
    intro e s
    cases e with
    | lua script => exact foldl_run_keeps_lists (script s) s
    | systemd => exact systemdEnhance_keeps_lists os s
  generalize hes : env.enhancers = es
  induction es generalizing s env with
  | nil =>
      unfold enhance
      rw [hes]
      exact ⟨rfl, rfl, rfl⟩
  | cons e es ih =>
      rw [enhance_cons e es env os s hes]
      obtain ⟨h1, h2, h3⟩ := ih { env with enhancers := es } (e.enhance os s).1 rfl
      obtain ⟨g1, g2, g3⟩ := one e s
      exact ⟨h1.trans g1, h2.trans g2, h3.trans g3⟩

@[simp]
theorem sockets_enhance (env : Env) (os : OsState) (s : Service) :
    (enhance env os s).sockets = s.sockets := (enhance_keeps_lists env os s).1

@[simp]
theorem mainProcess_enhance (env : Env) (os : OsState) (s : Service) :
    (enhance env os s).mainProcess = s.mainProcess := (enhance_keeps_lists env os s).2.1

@[simp]
theorem subProcess_enhance (env : Env) (os : OsState) (s : Service) :
    (enhance env os s).subProcess = s.subProcess := (enhance_keeps_lists env os s).2.2

@[simp]
theorem sources_enhance (env : Env) (os : OsState) (s : Service) :
    (enhance env os s).sources = s.sources := by simp [Service.sources]

@[simp]
theorem pids_enhance (env : Env) (os : OsState) (s : Service) :
    (enhance env os s).pids = s.pids := by simp [Service.pids]

/-! ### `addService` -/

/-- What `addService` does with the enhanced service: it is merged into the first stored
service it equals, else into the first that misses one of its sockets, else stored. -/
theorem addService_cases (env : Env) (os : OsState) (m : ServicesManager) (serv : Service) :
    let add := enhance env os serv
    (m.services.any (fun i => add.equals i) = true ∧
      (m.addService env os serv).services
        = modifyFirst (fun i => add.equals i) (fun i => i.updateFrom os add) m.services) ∨
    (m.services.any (fun i => add.equals i) = false ∧
      m.services.any (fun i => i.needSocketFrom os add) = true ∧
      (m.addService env os serv).services
        = modifyFirst (fun i => i.needSocketFrom os add) (fun i => i.updateFrom os add)
            m.services) ∨
    (m.services.any (fun i => add.equals i) = false ∧
      m.services.any (fun i => i.needSocketFrom os add) = false ∧
      (m.addService env os serv).services = m.services ++ [add]) := by
  intro add
  unfold addService
  by_cases hequal : m.services.any (fun i => add.equals i) = true
  · exact .inl ⟨hequal, by rw [if_pos hequal]⟩
  · have hequal' : m.services.any (fun i => add.equals i) = false := by simpa using hequal
    by_cases hneed : m.services.any (fun i => i.needSocketFrom os add) = true
    · exact .inr (.inl ⟨hequal', hneed, by rw [if_neg hequal, if_pos hneed]⟩)
    · exact .inr (.inr ⟨hequal', by simpa using hneed, by
        rw [if_neg hequal, if_neg hneed]
        rfl⟩)

/-- The two merges of `addService` are one: some test picks the first service to update. -/
theorem addService_merge_or_store (env : Env) (os : OsState) (m : ServicesManager)
    (serv : Service) :
    (∃ test : Service → Bool, m.services.any test = true ∧
      (m.addService env os serv).services
        = modifyFirst test (fun i => i.updateFrom os (enhance env os serv)) m.services) ∨
    (m.addService env os serv).services = m.services ++ [enhance env os serv] := by
  rcases addService_cases env os m serv with ⟨hany, h⟩ | ⟨-, hany, h⟩ | ⟨-, -, h⟩
  · exact .inl ⟨_, hany, h⟩
  · exact .inl ⟨_, hany, h⟩
  · exact .inr h

/-- The place of the stored service that `addService` merges an enhanced service into, if
there is one. -/
def mergeTarget (os : OsState) (m : ServicesManager) (add : Service) : Option Nat :=
  (m.services.findIdx? (fun i => add.equals i)).or
    (m.services.findIdx? (fun i => i.needSocketFrom os add))

/-- `addService` updates the service at the target, or stores a new one. -/
theorem services_addService (env : Env) (os : OsState) (m : ServicesManager) (serv : Service) :
    (m.addService env os serv).services
      = match m.mergeTarget os (enhance env os serv) with
        | some k => m.services.modify k (fun i => i.updateFrom os (enhance env os serv))
        | none => m.services ++ [enhance env os serv] := by
  refine Eq.trans ?_ (modifyFirst_else_append _ _ _ _ _)
  unfold addService
  dsimp only
  split
  · rfl
  · split <;> rfl

theorem havePID_iff {m : ServicesManager} {pid : Nat} :
    m.havePID pid = true ↔ ∃ s ∈ m.services, pid ∈ s.pids := by
  simp [havePID, Service.havePID_iff]

/-- A PID the manager does not know is listed by no service. -/
theorem not_mem_pids_of_unknown {m : ServicesManager} {pid : Nat} (h : m.havePID pid = false)
    {s : Service} (hs : s ∈ m.services) : pid ∉ s.pids := by
  intro hmem
  have hknown : m.havePID pid = true := havePID_iff.mpr ⟨s, hs, hmem⟩
  rw [h] at hknown
  exact absurd hknown (by simp)

/-- Some service of the manager has an entry with the source. -/
def HaveSource (m : ServicesManager) (source : String) : Prop :=
  ∃ s ∈ m.services, source ∈ s.sources

instance (m : ServicesManager) (source : String) : Decidable (m.HaveSource source) :=
  inferInstanceAs (Decidable (∃ s ∈ m.services, source ∈ s.sources))

end ServicesManager

/-! ### The services of the socket detector -/

namespace SocketDetector

open Service

section Associate
variable (os : OsState) (socks : List Socket) (serv : Service)

/-- `associate` writes the unique key and the sockets only. -/
theorem associate_eq : associate os socks serv
    = { serv with
          uniqName := (associate os socks serv).uniqName
          sockets := (associate os socks serv).sockets } := by
  unfold associate
  induction socks generalizing serv with
  | nil => rfl
  | cons i socks ih =>
      rw [List.foldl_cons, ih]
      split
      · rw [setSocket_eq]
      · rfl

@[simp]
theorem pids_associate : (associate os socks serv).pids = serv.pids := by
  rw [associate_eq]
  rfl

@[simp]
theorem haveSocket_associate (id : Nat) :
    (associate os socks serv).haveSocket os id = serv.haveSocket os id := by
  rw [associate_eq]
  rfl

/-- The sources afterwards are the old ones, and those of the scanned sockets that a main
process of the service holds. -/
theorem mem_sources_associate {source : String} :
    source ∈ (associate os socks serv).sources ↔ source ∈ serv.sources ∨
      ∃ i ∈ socks, serv.haveSocket os i.id = true ∧ i.getSource = source := by
  unfold associate
  induction socks generalizing serv with
  | nil => simp
  | cons i socks ih =>
      rw [List.foldl_cons, ih]
      by_cases hi : serv.haveSocket os i.id = true
      · -- `i` is held: its source is added, and what is held stays the same.
        rw [if_pos hi, mem_sources_setSocket]
        simp only [haveSocket_setSocket, List.mem_cons, exists_eq_or_imp, hi, true_and]
        rw [or_assoc, eq_comm (a := source)]
      · rw [if_neg hi]
        simp only [List.mem_cons, exists_eq_or_imp, hi, Bool.false_eq_true, false_and, false_or]

/-- An entry afterwards is an old one, or a scanned socket that a main process holds. -/
theorem mem_sockets_associate {e : Socket} (h : e ∈ (associate os socks serv).sockets) :
    e ∈ serv.sockets ∨ (e ∈ socks ∧ serv.haveSocket os e.id = true) := by
  unfold associate at h
  induction socks generalizing serv with
  | nil => exact .inl h
  | cons i socks ih =>
      rw [List.foldl_cons] at h
      cases hi : serv.haveSocket os i.id with
      | false =>
          rw [hi, if_neg (by simp)] at h
          exact (ih serv h).imp_right (fun h => ⟨List.mem_cons_of_mem i h.1, h.2⟩)
      | true =>
          rw [hi, if_pos rfl] at h
          -- The entry is old, or it is `i`, or a later turn sets it.
          have hrest := ih (serv.setSocket i) h
          rw [haveSocket_setSocket, sockets_setSocket] at hrest
          rcases hrest with h | h
          · split at h
            · exact .inl h
            · rcases List.mem_append.mp h with h | h
              · exact .inl h
              · rw [List.mem_singleton] at h
                subst h
                exact .inr ⟨List.mem_cons_self, hi⟩
          · exact .inr ⟨List.mem_cons_of_mem i h.1, h.2⟩

/-- The walk over the scanned sockets never gives a source two entries. -/
theorem nodup_sources_associate (h : serv.sources.Nodup) :
    (associate os socks serv).sources.Nodup := by
  unfold associate
  induction socks generalizing serv with
  | nil => exact h
  | cons i socks ih =>
      rw [List.foldl_cons]
      refine ih _ ?_
      split
      · exact nodup_sources_setSocket serv i h
      · exact h

end Associate

section SetSocketsOf
variable (os : OsState) (serv : Service) (pid : Nat)

/-- `setSocketsOf` writes the process lists only. -/
theorem setSocketsOf_eq : serv.setSocketsOf os pid
    = { serv with
          mainProcess := (serv.setSocketsOf os pid).mainProcess
          subProcess := (serv.setSocketsOf os pid).subProcess } := by
  unfold setSocketsOf
  dsimp only
  split <;> rfl

@[simp]
theorem pids_setSocketsOf : (serv.setSocketsOf os pid).pids = serv.pids := by
  -- A look at the descriptors keeps the PID.
  have hmap : ∀ l : List Process,
      (modifyFirst (fun p => p.pid == pid) (Process.setSockets os) l).map Process.pid
        = l.map Process.pid :=
    fun l => map_modifyFirst_of_eq _ _ Process.pid l (fun p _ _ => Process.pid_setSockets os p)
  unfold setSocketsOf pids
  dsimp only
  split
  · dsimp only
    rw [hmap]
  · dsimp only
    rw [hmap]

@[simp]
theorem sources_setSocketsOf : (serv.setSocketsOf os pid).sources = serv.sources := by
  rw [setSocketsOf_eq]
  rfl

/-- A known process reads its descriptors: the PIDs of the subprocesses stay. -/
theorem subPids_updateKnown (socks : List Socket) :
    (updateKnown os socks pid serv).subProcess.map Process.pid
      = serv.subProcess.map Process.pid := by
  unfold updateKnown
  rw [associate_eq]
  show (serv.setSocketsOf os pid).subProcess.map Process.pid = _
  unfold setSocketsOf
  dsimp only
  split
  · rfl
  · exact map_modifyFirst_of_eq _ _ Process.pid _ (fun p _ _ => Process.pid_setSockets os p)

@[simp]
theorem pids_updateKnown (socks : List Socket) :
    (updateKnown os socks pid serv).pids = serv.pids := by
  unfold updateKnown
  rw [pids_associate, pids_setSocketsOf]

/-- A known process reads its descriptors: nothing else happens to the main processes. -/
theorem mainProcess_updateKnown (socks : List Socket) :
    (updateKnown os socks pid serv).mainProcess = (serv.setSocketsOf os pid).mainProcess := by
  unfold updateKnown
  rw [associate_eq]

theorem name_updateKnown (socks : List Socket) :
    (updateKnown os socks pid serv).name = serv.name := by
  unfold updateKnown
  rw [associate_eq, setSocketsOf_eq]

/-- The sources grow by those of the scanned sockets that the service holds after the
look. -/
theorem mem_sources_updateKnown (socks : List Socket) {source : String} :
    source ∈ (updateKnown os socks pid serv).sources ↔ source ∈ serv.sources ∨
      ∃ i ∈ socks, (serv.setSocketsOf os pid).haveSocket os i.id = true ∧
        i.getSource = source := by
  unfold updateKnown
  rw [mem_sources_associate, sources_setSocketsOf]

end SetSocketsOf

section NewService
variable (env : Env) (os : OsState) (socks : List Socket) (p : Process) (it : Socket)

/-- The service with its first socket and its process. -/
def firstService : Service := ((Service.new env.defaultHost).setSocket it).addMainProcess os p

theorem newService_eq :
    newService env os socks p it = associate os socks (firstService env os p it) := rfl

@[simp]
theorem mainProcess_new (host : String) : (Service.new host).mainProcess = [] := by
  unfold Service.new Service.setDefaultHost
  split <;> rfl

@[simp]
theorem subProcess_new (host : String) : (Service.new host).subProcess = [] := by
  unfold Service.new Service.setDefaultHost
  split <;> rfl

@[simp]
theorem sockets_new (host : String) : (Service.new host).sockets = [] := by
  unfold Service.new Service.setDefaultHost
  split <;> rfl

/-- A process added to a service without processes is its only process. -/
theorem lists_addMainProcess_of_empty (s : Service) (hmain : s.mainProcess = [])
    (hsub : s.subProcess = []) :
    (s.addMainProcess os p).mainProcess = [p] ∧ (s.addMainProcess os p).subProcess = [] := by
  rcases addMainProcess_cases os s p with ⟨-, hparent, -⟩ | ⟨-, -, h⟩ | ⟨-, h⟩
  · rw [hmain] at hparent
    exact absurd hparent (List.not_mem_nil)
  · rw [h]
    unfold adoptChildren
    simp [hmain, hsub]
  · rw [h]
    simp [hmain, hsub]

/-- A service built for a process has it as its only process. -/
theorem lists_firstService : (firstService env os p it).mainProcess = [p] ∧
    (firstService env os p it).subProcess = [] :=
  lists_addMainProcess_of_empty os p _ (by simp) (by simp)

@[simp]
theorem mainProcess_newService : (newService env os socks p it).mainProcess = [p] := by
  rw [newService_eq, associate_eq]
  exact (lists_firstService env os p it).1

@[simp]
theorem subProcess_newService : (newService env os socks p it).subProcess = [] := by
  rw [newService_eq, associate_eq]
  exact (lists_firstService env os p it).2

@[simp]
theorem pids_newService : (newService env os socks p it).pids = [p.pid] := by
  simp [pids]

/-- The sources of a new service: its first socket, and the scanned sockets its process
holds. -/
theorem mem_sources_newService {source : String} :
    source ∈ (newService env os socks p it).sources ↔ source = it.getSource ∨
      (p.getStatus os = true ∧ ∃ i ∈ socks, p.haveSocket i.id = true ∧ i.getSource = source) := by
  have hnew : (Service.new env.defaultHost).sources = [] := by simp [sources]
  have hfirst : source ∈ (firstService env os p it).sources ↔ source = it.getSource := by
    unfold firstService
    rw [show (((Service.new env.defaultHost).setSocket it).addMainProcess os p).sources
        = ((Service.new env.defaultHost).setSocket it).sources from by simp [sources],
      mem_sources_setSocket, hnew]
    simp
  -- Its only main process is the new one, so that one decides what is held.
  have hheld : ∀ id, (firstService env os p it).haveSocket os id
      = (p.getStatus os && p.haveSocket id) := by
    intro id
    unfold Service.haveSocket
    rw [(lists_firstService env os p it).1]
    simp
  rw [newService_eq, mem_sources_associate, hfirst]
  simp only [hheld, Bool.and_eq_true]
  refine or_congr_right ?_
  constructor
  · rintro ⟨i, hi, ⟨halive, hid⟩, hsrc⟩
    exact ⟨halive, i, hi, hid, hsrc⟩
  · rintro ⟨halive, i, hi, hid, hsrc⟩
    exact ⟨i, hi, ⟨halive, hid⟩, hsrc⟩

/-- A new service has one entry for each source. -/
theorem nodup_sources_newService : (newService env os socks p it).sources.Nodup := by
  refine nodup_sources_associate os socks _ ?_
  show (((Service.new env.defaultHost).setSocket it).addMainProcess os p).sources.Nodup
  unfold sources
  rw [sockets_addMainProcess]
  refine nodup_sources_setSocket _ it ?_
  unfold sources
  rw [sockets_new]
  exact List.nodup_nil

end NewService

/-! ### One visit -/

section Visit
variable (env : Env) (os : OsState) (socks : List Socket) (m : ServicesManager) (pid : Nat)

/-- The process a visit builds for an unknown PID, with its descriptors. -/
def detected : Process := (Process.ofPid os pid).setSockets os

/-- The first scanned socket that an unknown process holds. -/
def firstHeld : Option Socket := socks.find? (fun it => (detected os pid).haveSocket it.id)

/-- The roles of a visited process, with what the visit does to the services. -/
theorem visit_cases :
    (m.havePID pid = true ∧
      (visit env os socks m pid).services
        = modifyFirst (fun s => s.havePID pid) (updateKnown os socks pid) m.services) ∨
    (m.havePID pid = false ∧ m.havePID (os.ppid pid) = true ∧
      (visit env os socks m pid).services
        = modifyFirst (fun s => s.havePID (os.ppid pid))
            (fun s => s.addSubProcess (Process.ofPid os pid)) m.services) ∨
    (m.havePID pid = false ∧ m.havePID (os.ppid pid) = false ∧
      (matchList (Process.ofPid os pid) env.socketBlackList = true ∨
        firstHeld os socks pid = none) ∧
      visit env os socks m pid = m) ∨
    (m.havePID pid = false ∧ m.havePID (os.ppid pid) = false ∧
      matchList (Process.ofPid os pid) env.socketBlackList = false ∧
      ∃ it, firstHeld os socks pid = some it ∧
        visit env os socks m pid
          = m.addService env os (newService env os socks (detected os pid) it)) := by
  have hppid : (Process.ofPid os pid).getPPID os = os.ppid pid := by
    simp [Process.getPPID]
  unfold visit detected
  dsimp only
  rw [hppid]
  cases hknown : m.havePID pid with
  | true =>
      -- The template is written for the service found, and the services stay.
      refine .inl ⟨rfl, ?_⟩
      rw [if_pos rfl]
      split <;> rfl
  | false =>
      rw [if_neg (by simp)]
      cases hparent : m.havePID (os.ppid pid) with
      | true =>
          refine .inr (.inl ⟨rfl, rfl, ?_⟩)
          rw [if_pos rfl, ServicesManager.handleSubProcess, hppid]
      | false =>
          rw [if_neg (by simp)]
          cases hblack : matchList (Process.ofPid os pid) env.socketBlackList with
          | true =>
              rw [if_pos rfl]
              exact .inr (.inr (.inl ⟨rfl, rfl, .inl rfl, rfl⟩))
          | false =>
              rw [if_neg (by simp)]
              -- The process reads its descriptors only here.
              cases hfind : firstHeld os socks pid with
              | none =>
                  refine .inr (.inr (.inl ⟨rfl, rfl, .inr rfl, ?_⟩))
                  unfold firstHeld detected at hfind
                  rw [hfind]
              | some it =>
                  refine .inr (.inr (.inr ⟨rfl, rfl, rfl, it, rfl, ?_⟩))
                  unfold firstHeld detected at hfind
                  rw [hfind]

@[simp]
theorem pid_detected : (detected os pid).pid = pid := by simp [detected]

@[simp]
theorem getPPID_detected : (detected os pid).getPPID os = os.ppid pid := by
  rw [Process.getPPID, pid_detected]

@[simp]
theorem getStatus_detected : (detected os pid).getStatus os = os.alive pid := by
  rw [Process.getStatus, pid_detected]

end Visit

end SocketDetector

/-! ### One unit of the systemd detector -/

namespace SystemdDetector

section Unit
variable (env : Env) (os : OsState) (m : ServicesManager) (small : String)

/-- A service built for a unit has its process as its only process, and no socket. -/
theorem lists_newService (p : Process) : (newService env os small p).mainProcess = [p] ∧
    (newService env os small p).subProcess = [] ∧ (newService env os small p).sockets = [] := by
  have hlists := SocketDetector.lists_addMainProcess_of_empty os p
    { Service.new env.defaultHost with uniqName := small } (by simp) (by simp)
  refine ⟨hlists.1, hlists.2, ?_⟩
  show (Service.addMainProcess os _ p).sockets = []
  rw [Service.sockets_addMainProcess]
  exact SocketDetector.sockets_new env.defaultHost

@[simp]
theorem pids_newService (p : Process) : (newService env os small p).pids = [p.pid] := by
  obtain ⟨hmain, hsub, -⟩ := lists_newService env os small p
  simp [Service.pids, hmain, hsub]

/-- The handler a known unit gives its service, where it has none. -/
def attach (s : Service) : Service :=
  if s.haveHandler then s else { s with handler := some (.systemd (objectPath small)) }

/-- What a unit does: its service gets the handler when its process is known, nothing
happens when the process has no executable, and else a service is added. -/
theorem addUnit_cases :
    (m.havePID (os.bus.execMainPID (objectPath small)) = true ∧
      (addUnit env os m small).services
        = modifyFirst (fun s => s.havePID (os.bus.execMainPID (objectPath small)))
            (attach small) m.services) ∨
    (m.havePID (os.bus.execMainPID (objectPath small)) = false ∧
      (Process.ofPid os (os.bus.execMainPID (objectPath small))).baseName = "" ∧
      addUnit env os m small = m) ∨
    (m.havePID (os.bus.execMainPID (objectPath small)) = false ∧
      (Process.ofPid os (os.bus.execMainPID (objectPath small))).baseName ≠ "" ∧
      addUnit env os m small = m.addService env os (newService env os small
        (Process.ofPid os (os.bus.execMainPID (objectPath small))))) := by
  unfold addUnit
  dsimp only
  cases hknown : m.havePID (os.bus.execMainPID (objectPath small)) with
  | true => exact .inl ⟨rfl, by rw [if_pos rfl]; rfl⟩
  | false =>
      rw [if_neg (by simp)]
      by_cases hname : (Process.ofPid os (os.bus.execMainPID (objectPath small))).baseName = ""
      · exact .inr (.inl ⟨rfl, hname, by rw [if_pos hname]⟩)
      · exact .inr (.inr ⟨rfl, hname, by rw [if_neg hname]⟩)

/-- A property of the manager that every unit keeps is kept by the loop. -/
theorem walk_keeps {I : ServicesManager → Prop}
    (hstep : ∀ m small, I m → I (addUnit env os m small)) (lines : List String)
    {m : ServicesManager} (hm : I m) : I (walk env os m lines) := by
  induction lines generalizing m with
  | nil => exact hm
  | cons line lines ih =>
      unfold walk
      split
      · exact hm
      · split
        · exact ih hm
        · split
          · exact hm
          · exact ih hm
          · exact ih (hstep m _ hm)

end Unit

end SystemdDetector

/-! ### One status request -/

section Status
variable (env : Env) (os : OsState)

/-- The PID a status request adds to a service: the main PID of its unit, when something
failed, the unit is active, and the PID is not one of the service's own. -/
def learned (s : Service) : Option Nat :=
  match s.handler with
  | some (.systemd id) =>
      let pid := os.bus.execMainPID id
      if s.failed os = true ∧ os.bus.haveBus = true ∧ os.bus.activeState id = some "active" ∧
          pid ≠ 0 ∧ s.havePID pid = false ∧ (Process.ofPid os pid).baseName ≠ "" then
        some pid
      else none
  | _ => none

/-- A learned PID is that of a live process, other than 0, that its service does not
list. -/
theorem learned_spec {s : Service} {pid : Nat} (h : learned os s = some pid) :
    pid ≠ 0 ∧ os.alive pid = true ∧ pid ∉ s.pids := by
  unfold learned at h
  cases hhandler : s.handler with
  | none => simp [hhandler] at h
  | some handler =>
      cases handler with
      | lua file => simp [hhandler] at h
      | systemd id =>
          rw [hhandler] at h
          simp only [Option.ite_none_right_eq_some, Option.some.injEq] at h
          obtain ⟨⟨-, -, -, hzero, hunknown, hname⟩, rfl⟩ := h
          refine ⟨hzero, ?_, ?_⟩
          · unfold OsState.alive
            -- Without a `/proc` directory it would have no name.
            cases hentry : os.entry (os.bus.execMainPID id) with
            | none => simp [Process.ofPid, hentry] at hname
            | some entry => rfl
          · intro hmem
            rw [Service.havePID_iff.mpr hmem] at hunknown
            exact absurd hunknown (by simp)

/-- The systemd handler leaves the service alone, unless the unit is active under a main PID
that is not known and has an executable. -/
theorem isBlackout_systemd_cases (s : Service) (id : String) :
    let pid := os.bus.execMainPID id
    let learns := os.bus.haveBus = true ∧ os.bus.activeState id = some "active" ∧ pid ≠ 0 ∧
      s.havePID pid = false ∧ (Process.ofPid os pid).baseName ≠ ""
    (learns ∧ Handler.isBlackout env os s (.systemd id)
        = some (s.updateMainProcess os (Process.ofPid os pid), true)) ∨
    (¬ learns ∧ ∀ r, Handler.isBlackout env os s (.systemd id) = some r → r.1 = s) := by
  intro pid learns
  by_cases hlearns : learns
  · obtain ⟨hbus, hactive, hzero, hunknown, hname⟩ := hlearns
    refine .inl ⟨⟨hbus, hactive, hzero, hunknown, hname⟩, ?_⟩
    simp [Handler.isBlackout, hbus, hactive, show os.bus.execMainPID id ≠ 0 from hzero,
      show s.havePID (os.bus.execMainPID id) = false from hunknown,
      show (Process.ofPid os (os.bus.execMainPID id)).baseName ≠ "" from hname, pid]
  · refine .inr ⟨hlearns, fun r hr => ?_⟩
    -- Each return of the handler but the last gives the service back.
    have hsame : ∀ b : Bool, some (s, b) = some r → r.1 = s := by
      intro b hb
      rw [← Option.some.inj hb]
    unfold Handler.isBlackout at hr
    dsimp only at hr
    split at hr
    · exact hsame _ hr
    · rename_i hbus
      cases hstate : os.bus.activeState id with
      | none => simp [hstate] at hr
      | some state =>
          rw [hstate] at hr
          -- An active unit learns nothing, so its PID is known or has no executable.
          by_cases hactive : state = "active"
          · by_cases hknown : pid = 0 ∨ s.havePID pid = true
            · refine hsame true ?_
              rw [← hr]
              simp [hactive, show os.bus.execMainPID id = 0 ∨
                s.havePID (os.bus.execMainPID id) = true from hknown]
            · rw [not_or, Bool.not_eq_true] at hknown
              have hname : (Process.ofPid os pid).baseName = "" := by
                by_contra hname
                exact hlearns ⟨by simpa using hbus, by rw [hstate, hactive], hknown.1, hknown.2,
                  hname⟩
              refine hsame true ?_
              rw [← hr]
              simp [hactive, show (Process.ofPid os (os.bus.execMainPID id)).baseName = ""
                from hname]
          · refine hsame (state == "inactive") ?_
            rw [← hr]
            simp [hactive]

/-- The handler leaves the service alone, or the learned process is added. -/
theorem askHandler_cases (s : Service) :
    (learned os s = none ∧ ∀ r, s.askHandler env os = some r → r.1 = s) ∨
    ∃ pid b, learned os s = some pid ∧
      s.askHandler env os = some (s.updateMainProcess os (Process.ofPid os pid), b) := by
  have hsame : ∀ (b : Bool) (r : Service × Bool), some (s, b) = some r → r.1 = s := by
    intro b r hb
    rw [← Option.some.inj hb]
  unfold learned Service.askHandler
  cases hhandler : s.handler with
  | none => exact .inl ⟨rfl, hsame false⟩
  | some handler =>
      cases handler with
      -- A script cannot change the service.
      | lua file =>
          refine .inl ⟨rfl, fun r hr => ?_⟩
          dsimp only at hr
          split at hr
          · exact hsame (env.luaBlackout file s) r hr
          · exact hsame false r hr
      | systemd id =>
          dsimp only
          cases hfailed : s.failed os with
          | false => exact .inl ⟨by simp, fun r hr => hsame false r hr⟩
          | true =>
              rw [if_pos rfl]
              rcases isBlackout_systemd_cases env os s id with ⟨hlearns, hask⟩ | ⟨hnot, hall⟩
              · exact .inr ⟨_, true, if_pos ⟨rfl, hlearns⟩, hask⟩
              · exact .inl ⟨if_neg (fun h => hnot h.2), hall⟩

@[simp]
theorem pid_cacheNames (p : Process) : (Service.cacheNames os p).pid = p.pid := by
  have hcwd : (p.getCWD os).1.pid = p.pid := by
    unfold Process.getCWD
    split
    · rfl
    · split <;> rfl
  have huser : ∀ p : Process, (p.getUsername os).1.pid = p.pid := by
    intro p
    unfold Process.getUsername
    split
    · rfl
    · split
      · rfl
      · split <;> rfl
  unfold Service.cacheNames Service.withNames
  split
  · exact (huser _).trans hcwd
  · rfl

/-- The service after its document was built: running processes know their names. -/
def cached (s : Service) : Service :=
  { s with
      mainProcess := s.mainProcess.map (Service.cacheNames os)
      subProcess := s.subProcess.map (Service.cacheNames os) }

theorem mainPids_cached (s : Service) :
    (cached os s).mainProcess.map Process.pid = s.mainProcess.map Process.pid := by
  simp [cached, Function.comp_def]

theorem subPids_cached (s : Service) :
    (cached os s).subProcess.map Process.pid = s.subProcess.map Process.pid := by
  simp [cached, Function.comp_def]

@[simp]
theorem pids_cached (s : Service) : (cached os s).pids = s.pids := by
  unfold Service.pids
  rw [mainPids_cached, subPids_cached]

/-- The manager after a status request on the `j`-th service. An exception leaves it
alone. -/
def afterStatus (m : ServicesManager) (j : Nat) : ServicesManager :=
  ((m.statusOf env os j).map Prod.fst).getD m

/-- What a status request does: the service keeps its processes, or the learned one is
added. -/
theorem afterStatus_cases (m : ServicesManager) (j : Nat) :
    ((∀ s, m.services[j]? = some s → learned os s = none) ∧
      (afterStatus env os m j = m ∨
        (afterStatus env os m j).services = m.services.modify j (cached os))) ∨
    ∃ s pid, m.services[j]? = some s ∧ learned os s = some pid ∧
      (afterStatus env os m j).services = m.services.modify j
        (fun s => cached os (s.updateMainProcess os (Process.ofPid os pid))) := by
  cases hs : m.services[j]? with
  | none =>
      refine .inl ⟨by simp, .inl ?_⟩
      simp [afterStatus, ServicesManager.statusOf, hs]
  | some s =>
      have hset : ∀ f : Service → Service, m.services.modify j f = m.services.set j (f s) := by
        intro f
        rw [List.modify_eq_set_getElem?, hs]
        rfl
      rcases askHandler_cases env os s with ⟨hnone, hsame⟩ | ⟨pid, b, hpid, hask⟩
      · -- The document is built from the service as it was, or the handler throws.
        refine .inl ⟨fun s' hs' => ?_, ?_⟩
        · rw [Option.some.injEq] at hs'
          rw [← hs', hnone]
        · cases hask : s.askHandler env os with
          | none => exact .inl (by
              simp [afterStatus, ServicesManager.statusOf, Service.getJsonStatus, hs, hask])
          | some r =>
              right
              rw [hset]
              have hr := hsame r hask
              simp [afterStatus, ServicesManager.statusOf, Service.getJsonStatus, hs, hask, hr,
                cached]
      · refine .inr ⟨s, pid, rfl, hpid, ?_⟩
        rw [hset]
        simp [afterStatus, ServicesManager.statusOf, Service.getJsonStatus, hs, hask, cached]

end Status

end WatchedAgent.Model
