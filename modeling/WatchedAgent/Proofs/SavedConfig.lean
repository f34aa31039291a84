import WatchedAgent.Model.Systemd
import WatchedAgent.Proofs.ServiceOps
import WatchedAgent.Proofs.SocketText

/-!
# `WatchedAgent.Proofs.SavedConfig`: a service from its saved configuration

`setDefaultConfig` writes the sources, the unique key, the host and the paths of the main
processes. The name is not written: the constructor that loads the document takes it from
the first path.

* `exists_loaded`: the constructor succeeds, and gives the sources, the unique key and the
  paths that were saved (`LoadedFrom`).
* `keeps_iff`: the identifier of a reachable service survives if and only if its name is
  the one of its first main process.
* `not_keeps_adopted`: a service that a child process named, before its parent took its
  place.
-/

set_option autoImplicit false

namespace WatchedAgent.Proofs

open WatchedAgent.Lib
open WatchedAgent.Model
open WatchedAgent.Model.Service

namespace SavedConfig

/-- The paths of the main processes. -/
def paths (s : Service) : List String := s.mainProcess.map Process.fullPath

/-- The name the first of the paths gives. -/
def firstName (l : List String) : String := Text.basename (l.head?.getD "")

/-- A socket of the agent: the scan of a file of `/proc/net`, or a configuration file, made
it. -/
inductive Built (sock : Socket) : Prop where
  | ofLine {line type : String} (htype : type ∈ SocketDetector.files)
      (h : Socket.ofLine line type = some sock)
  | ofSource {id : Nat} {text : String} (h : Socket.ofSource id text = some sock)

theorem Built.ranged {sock : Socket} (h : Built sock) : SocketText.Ranged sock := by
  have hfiles : ∀ type ∈ SocketDetector.files, ':' ∉ type.toList := by decide
  cases h with
  | ofLine htype h => exact SocketText.ranged_ofLine h (hfiles _ htype)
  | ofSource h => exact SocketText.ranged_ofSource h

/-- What a save needs to be read back: built sockets with distinct sources. -/
structure Savable (s : Service) : Prop where
  built : ∀ sock ∈ s.sockets, Built sock
  nodup : s.sources.Nodup

/-! ### The constructor -/

/-- What the constructor makes of the document of a service. -/
structure LoadedFrom (s loaded : Service) : Prop where
  name : loaded.name = firstName (paths s)
  uniqName : loaded.uniqName = s.uniqName
  type : loaded.type = "unknown"
  sources : loaded.sources = s.sources
  mainProcess : loaded.mainProcess = (paths s).map Process.ofPath

theorem LoadedFrom.paths_eq {s loaded : Service} (h : LoadedFrom s loaded) :
    paths loaded = paths s := by
  have hid : (Process.fullPath ∘ Process.ofPath : String → String) = id := rfl
  unfold paths
  rw [h.mainProcess, List.map_map, hid, List.map_id]
  rfl

/-- The socket loop of the constructor reads each text back. -/
theorem exists_mapM_ofSource (ids : String → Nat) (socks : List Socket)
    (h : ∀ sock ∈ socks, Built sock) : ∃ socks',
      (socks.map Socket.getSource).mapM (fun text => Socket.ofSource (ids text) text)
        = some socks' ∧ socks'.map Socket.getSource = socks.map Socket.getSource := by
  induction socks with
  | nil => exact ⟨[], rfl, rfl⟩
  | cons sock socks ih =>
      obtain ⟨sock', hread, hsource⟩ := SocketText.getSource_ofSource (ids sock.getSource)
        (h sock List.mem_cons_self).ranged
      obtain ⟨socks', hrest, hsources⟩ := ih fun s hs => h s (List.mem_cons_of_mem _ hs)
      refine ⟨sock' :: socks', ?_, ?_⟩
      · rw [List.map_cons, List.mapM_cons, hread, hrest]
        rfl
      · rw [List.map_cons, hsource, hsources, List.map_cons]

/-- Sockets with distinct sources are all added, and the rest of the service stays. -/
theorem foldl_setSocket (socks : List Socket) (s : Service)
    (h : (s.sources ++ socks.map Socket.getSource).Nodup) : socks.foldl setSocket s
      = { s with
            uniqName := (socks.foldl setSocket s).uniqName
            sockets := s.sockets ++ socks } := by
  induction socks generalizing s with
  | nil => rw [List.foldl_nil, List.append_nil]
  | cons sock socks ih =>
      have hnew : sock.getSource ∉ s.sources := by
        intro hmem
        exact List.disjoint_of_nodup_append h hmem (by simp)
      have hsockets : (s.setSocket sock).sockets = s.sockets ++ [sock] := by
        rw [sockets_setSocket, if_neg hnew]
      have hsources : (s.setSocket sock).sources ++ socks.map Socket.getSource
          = s.sources ++ (sock :: socks).map Socket.getSource := by
        unfold sources
        rw [hsockets]
        simp
      rw [List.foldl_cons, ih _ (hsources ▸ h), hsockets, setSocket_eq]
      simp

variable (os : OsState)

/-- The process loop of the constructor. -/
def loadProcesses (s : Service) (l : List String) : Service :=
  l.foldl (fun s path => s.addMainProcess os (Process.ofPath path)) s

/-- A path of the file becomes a main process, whatever the system runs. -/
theorem addMainProcess_ofPath (s : Service) (path : String) :
    s.addMainProcess os (Process.ofPath path)
      = { s with
            name := (s.named (Process.ofPath path)).name
            mainProcess := s.mainProcess ++ [Process.ofPath path] } := by
  rcases addMainProcess_cases os s (Process.ofPath path) with ⟨h, -, -⟩ | ⟨h, -, -⟩ | ⟨-, h⟩
  · exact absurd rfl h
  · exact absurd rfl h
  · exact h

theorem loadProcesses_eq (s : Service) (l : List String) : loadProcesses os s l
    = { s with
          name := (loadProcesses os s l).name
          mainProcess := s.mainProcess ++ l.map Process.ofPath } := by
  induction l generalizing s with
  | nil => simp [loadProcesses]
  | cons path l ih =>
      show loadProcesses os (s.addMainProcess os (Process.ofPath path)) l
        = { s with
              name := (loadProcesses os (s.addMainProcess os (Process.ofPath path)) l).name
              mainProcess := s.mainProcess ++ (path :: l).map Process.ofPath }
      rw [ih, addMainProcess_ofPath]
      simp

/-- The name stays once there is a main process. -/
theorem name_loadProcesses_of_ne {s : Service} (h : s.mainProcess ≠ []) (l : List String) :
    (loadProcesses os s l).name = s.name := by
  induction l generalizing s with
  | nil => rfl
  | cons path l ih =>
      have hne : (s.addMainProcess os (Process.ofPath path)).mainProcess ≠ [] := by
        rw [addMainProcess_ofPath]
        simp
      show (loadProcesses os (s.addMainProcess os (Process.ofPath path)) l).name = _
      rw [ih hne, name_addMainProcess, named_of_ne s _ (.inl h)]

/-- The first path names the service. -/
theorem name_loadProcesses {s : Service} (hmain : s.mainProcess = []) (hname : s.name = "")
    (l : List String) : (loadProcesses os s l).name = firstName l := by
  cases l with
  | nil => exact hname
  | cons path l =>
      have hne : (s.addMainProcess os (Process.ofPath path)).mainProcess ≠ [] := by
        rw [addMainProcess_ofPath]
        simp
      show (loadProcesses os (s.addMainProcess os (Process.ofPath path)) l).name = _
      rw [name_loadProcesses_of_ne os hne, name_addMainProcess]
      unfold named
      rw [if_pos ⟨hmain, hname⟩]
      rfl

theorem setDefaultHost_eq (host : String) (s : Service) :
    setDefaultHost host s = { s with host := (setDefaultHost host s).host } := by
  unfold setDefaultHost
  split <;> rfl

/-- The document of a service with built sockets can be loaded. -/
theorem exists_loaded {s : Service} (h : Savable s) (host : String) (ids : String → Nat) :
    ∃ loaded, ofConfig os host ids s.setDefaultConfig = some loaded ∧ LoadedFrom s loaded := by
  obtain ⟨socks, hread, hsources⟩ := exists_mapM_ofSource ids s.sockets h.built
  have hsocks := foldl_setSocket socks { collectorsCfg := s.collectorsCfg }
    (by rw [hsources]; exact h.nodup)
  -- The service before the process loop, and after it.
  let base : Service :=
    { host := s.host, uniqName := s.uniqName, collectorsCfg := s.collectorsCfg, sockets := socks }
  have hload : ofConfig os host ids s.setDefaultConfig
      = some (setDefaultHost host (loadProcesses os base (paths s))) := by
    unfold ofConfig
    simp only [setDefaultConfig, Option.getD_some, hread, Option.bind_eq_bind, Option.bind_some]
    rw [hsocks]
    rfl
  have hname : (loadProcesses os base (paths s)).name = firstName (paths s) :=
    name_loadProcesses os rfl rfl _
  have heq := loadProcesses_eq os base (paths s)
  refine ⟨_, hload, ?_⟩
  rw [setDefaultHost_eq, heq]
  exact {
    name := hname
    uniqName := rfl
    type := rfl
    sources := hsources
    mainProcess := rfl }

/-! ### What the operations keep -/

/-- An operation that leaves the sockets alone. -/
theorem Savable.of_sockets_eq {s s' : Service} (h : Savable s) (hsockets : s'.sockets = s.sockets) :
    Savable s' := by
  refine ⟨fun sock hs => h.built sock (hsockets ▸ hs), ?_⟩
  have hnodup := h.nodup
  unfold sources at hnodup ⊢
  rwa [hsockets]

theorem Savable.setSocket {s : Service} (h : Savable s) {sock : Socket} (hsock : Built sock) :
    Savable (s.setSocket sock) := by
  refine ⟨?_, nodup_sources_setSocket s sock h.nodup⟩
  intro e he
  rw [sockets_setSocket] at he
  split at he
  · exact h.built e he
  · rcases List.mem_append.mp he with he | he
    · exact h.built e he
    · obtain rfl := List.mem_singleton.mp he
      exact hsock

theorem Savable.replaceSocket {s : Service} (h : Savable s) {sock : Socket}
    (hsock : Built sock) : Savable (s.replaceSocket sock) := by
  have herase : Savable
      { s with sockets := s.sockets.eraseP (fun j => j.getSource == sock.getSource) } :=
    ⟨fun e he => h.built e (List.mem_of_mem_eraseP he),
      h.nodup.sublist (List.eraseP_sublist.map _)⟩
  exact herase.setSocket hsock

theorem Savable.updateFrom {s : Service} (h : Savable s) {src : Service}
    (hsrc : ∀ sock ∈ src.sockets, Built sock) : Savable (s.updateFrom os src) := by
  have hfold : ∀ (socks : List Socket) (t : Service), Savable t → (∀ sock ∈ socks, Built sock) →
      Savable (socks.foldl Service.replaceSocket t) := by
    intro socks
    induction socks with
    | nil => exact fun t ht _ => ht
    | cons sock socks ih =>
        intro t ht hsocks
        exact ih _ (ht.replaceSocket (hsocks sock List.mem_cons_self))
          fun e he => hsocks e (List.mem_cons_of_mem _ he)
  have hprocess : Savable (s.withProcesses os src) :=
    h.of_sockets_eq (sockets_withProcesses os s src)
  exact (hfold src.sockets _ hprocess hsrc).of_sockets_eq (sockets_updateFrom os s src)

theorem Savable.associate {socks : List Socket} (hsocks : ∀ sock ∈ socks, Built sock)
    {s : Service} (h : Savable s) : Savable (SocketDetector.associate os socks s) := by
  unfold SocketDetector.associate
  induction socks generalizing s with
  | nil => exact h
  | cons sock socks ih =>
      rw [List.foldl_cons]
      refine ih (fun e he => hsocks e (List.mem_cons_of_mem _ he)) ?_
      split
      · exact h.setSocket (hsocks sock List.mem_cons_self)
      · exact h

/-! ### The services of the agent -/

/-- What the detectors make, before `addService`. -/
inductive Detected : Service → Prop where
  | socket (env : Env) (os : OsState) {socks : List Socket} (p : Process) {it : Socket}
      (hsocks : ∀ sock ∈ socks, Built sock) (hit : it ∈ socks) :
      Detected (SocketDetector.newService env os socks p it)
  | systemd (env : Env) (os : OsState) (small : String) (p : Process) :
      Detected (SystemdDetector.newService env os small p)

/-- A detected service with a key, after any operations. The system may change between two
of them. -/
inductive Reached : Service → Prop where
  | detected {s : Service} (h : Detected s) (hkey : s.uniqName ≠ "") : Reached s
  | setSocket {s : Service} {sock : Socket} (h : Reached s) (hsock : Built sock) :
      Reached (s.setSocket sock)
  | addMainProcess (os : OsState) {s : Service} (p : Process) (h : Reached s) :
      Reached (s.addMainProcess os p)
  | updateMainProcess (os : OsState) {s : Service} (p : Process) (h : Reached s) :
      Reached (s.updateMainProcess os p)
  | updateFrom (os : OsState) {s src : Service} (h : Reached s)
      (hsrc : ∀ sock ∈ src.sockets, Built sock) : Reached (s.updateFrom os src)
  | setUniqKey {s : Service} (key : String) (h : Reached s) :
      Reached ((SetterCall.setUniqKey key).run s)

theorem Detected.savable {s : Service} (h : Detected s) : Savable s := by
  cases h with
  | socket env os p hsocks hit =>
      have hnew : Savable (Service.new env.defaultHost) := by
        unfold Service.new
        rw [setDefaultHost_eq]
        exact ⟨by simp, List.nodup_nil⟩
      have hfirst := (hnew.setSocket (hsocks _ hit)).of_sockets_eq
        (sockets_addMainProcess os _ p)
      exact hfirst.associate os hsocks
  | systemd env os small p =>
      have hnew : Savable { Service.new env.defaultHost with uniqName := small } := by
        unfold Service.new
        rw [setDefaultHost_eq]
        exact ⟨by simp, List.nodup_nil⟩
      exact hnew.of_sockets_eq (sockets_addMainProcess os _ p)

/-- What can be saved can be read back, in every service of the agent. -/
theorem Reached.savable {s : Service} (h : Reached s) : Savable s := by
  induction h with
  | detected h _ => exact h.savable
  | setSocket _ hsock ih => exact ih.setSocket hsock
  | addMainProcess os p _ ih => exact ih.of_sockets_eq (sockets_addMainProcess os _ p)
  | updateMainProcess os p _ ih => exact ih.of_sockets_eq (sockets_updateMainProcess os _ p)
  | updateFrom os _ hsrc ih => exact ih.updateFrom os hsrc
  | setUniqKey key _ ih => exact ih.of_sockets_eq rfl

/-- The document of the service loads to a service with the same identifier, the same
sources and the same paths, in order. -/
def Keeps (host : String) (ids : String → Nat) (s : Service) : Prop :=
  ∃ loaded, ofConfig os host ids s.setDefaultConfig = some loaded ∧
    loaded.getID = s.getID ∧ loaded.sources = s.sources ∧ paths loaded = paths s

theorem getID_eq_iff {s t : Service} (hkey : s.uniqName = t.uniqName) :
    s.getID = t.getID ↔ s.name = t.name := by
  unfold getID
  rw [hkey, ← String.toList_inj, ← String.toList_inj]
  simp

/-- The rule for services that can be read back. -/
theorem keeps_iff_of_savable {s : Service} (h : Savable s) (host : String)
    (ids : String → Nat) : Keeps os host ids s ↔ s.name = firstName (paths s) := by
  obtain ⟨loaded, hload, hfrom⟩ := exists_loaded os h host ids
  constructor
  · rintro ⟨loaded', hload', hid, -, -⟩
    obtain rfl : loaded = loaded' := Option.some.inj (hload.symm.trans hload')
    exact ((getID_eq_iff hfrom.uniqName).mp hid).symm.trans hfrom.name
  · intro hname
    refine ⟨loaded, hload, ?_, hfrom.sources, hfrom.paths_eq⟩
    exact (getID_eq_iff hfrom.uniqName).mpr (hfrom.name.trans hname.symm)

/-- A service of the agent keeps its identity exactly when it has the name of its first
main process. -/
theorem keeps_iff {s : Service} (h : Reached s) (host : String) (ids : String → Nat) :
    Keeps os host ids s ↔ s.name = firstName (paths s) :=
  keeps_iff_of_savable os h.savable host ids

/-! ### A service its child named -/

/-- A worker that listens, 11, and the process that started it, 10. -/
def workerAndStarter : OsState :=
  OsState.ofProcs
    [(11, { exe := some "/usr/bin/worker", stat := "11 (worker) S 10",
            fd := some ["socket:[100]"] }),
      (10, { exe := some "/usr/bin/starter", stat := "10 (starter) S 1" })]

/-- The socket of the worker. -/
def workerSocket : Socket :=
  { id := 100, type := "tcp", source := { port := 80, ip1 := 127, ip4 := 1 } }

theorem built_workerSocket : Built workerSocket := by
  have hread : Socket.ofLine "0: 0100007F:0050 00000000:0000 0A 0 0 0 0 0 100" "tcp"
      = some workerSocket := by
    decide
  exact .ofLine (by decide) hread

/-- The service found on the worker. -/
def workerService : Service :=
  SocketDetector.newService {} workerAndStarter [workerSocket]
    ((Process.ofPid workerAndStarter 11).setSockets workerAndStarter) workerSocket

theorem reached_workerService : Reached workerService := by
  have hbuilt : ∀ sock ∈ [workerSocket], Built sock := by
    intro sock hs
    obtain rfl := List.mem_singleton.mp hs
    exact built_workerSocket
  exact .detected (.socket _ _ _ hbuilt List.mem_cons_self) (by decide)

/-- The rule at the service found on the worker, which keeps its identity. -/
theorem keeps_workerService :
    Keeps workerAndStarter "" (fun _ => 0) workerService :=
  (keeps_iff workerAndStarter reached_workerService "" (fun _ => 0)).mpr (by decide)

/-- The worker becomes a subprocess of its starter, and the service keeps its name. Loaded
again, it has the name of the starter. -/
theorem not_keeps_adopted : ∃ s, Reached s ∧
    ¬ Keeps workerAndStarter "" (fun _ => 0) s := by
  have hreached := Reached.addMainProcess workerAndStarter
    (Process.ofPid workerAndStarter 10) reached_workerService
  refine ⟨_, hreached, ?_⟩
  rw [keeps_iff_of_savable _ hreached.savable]
  decide

end SavedConfig

end WatchedAgent.Proofs
