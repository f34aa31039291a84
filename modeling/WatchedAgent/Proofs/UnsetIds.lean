import WatchedAgent.Lib.Fallible
import WatchedAgent.Proofs.Decisions
import WatchedAgent.Proofs.Parenthood

/-!
# `WatchedAgent.Proofs.UnsetIds`: the identifiers a file leaves unset

A socket read from a configuration file has no inode, and its constructor leaves `id` as
the memory has it. `fillAct mem` is a step whose sockets are in numbered cells, with `mem`
for what the cells hold, and `documents` are the status documents of a run.

The cells are followed through a run that writes a mark into each: `mark` is above every
inode, so a marked entry is one whose identifier is still unset. A run with the memory
`mem` is the marked run with the marks filled in, as long as no answer depends on them.
`Undecided` is an entry on which `haveSocket` depends, and `Quiet` keeps the comparisons
away from such entries. `documents_of_quiet` is the result, and
`not_documents_eq_merged_unit` a run whose document shows the memory: a unit brings the
process to the loaded service without its sockets, and `setSocket` keeps the loaded entry.
-/

set_option autoImplicit false

namespace WatchedAgent.Proofs.UnsetIds

open WatchedAgent.Lib
open WatchedAgent.Lib.Run
open WatchedAgent.Model
open WatchedAgent.Model.ServicesManager
open WatchedAgent.Model.SocketDetector

/-! ### Marks -/

/-- The mark of a memory cell. An inode has 32 bits. -/
def mark (cell : Nat) : Nat := 0x100000000 + cell

/-- The identifier is a mark: nothing was written to it. -/
def IsMark (id : Nat) : Prop := 0x100000000 ≤ id

instance (id : Nat) : Decidable (IsMark id) := inferInstanceAs (Decidable (_ ≤ _))

section Fill
variable (mem : Nat → Nat)

/-- What the program reads where the marked run has `id`. -/
def fillId (id : Nat) : Nat := if IsMark id then mem (id - 0x100000000) else id

def fillSocket (i : Socket) : Socket := { i with id := fillId mem i.id }

def fillService (s : Service) : Service := { s with sockets := s.sockets.map (fillSocket mem) }

def fillManager (m : ServicesManager) : ServicesManager :=
  { m with services := m.services.map (fillService mem) }

/-- The step with the memory: `ids` of a `load` names the cells of the sockets. -/
def fillAct : Act → Act
  | .load os host ids cfg => .load os host (fun text => mem (ids text)) cfg
  | .visit env os socks pid => .visit env os socks pid
  | .unit env os small => .unit env os small
  | .status env os j => .status env os j

theorem fillId_mark (cell : Nat) : fillId mem (mark cell) = mem cell := by
  have hmark : IsMark (mark cell) := Nat.le_add_right _ _
  unfold fillId
  rw [if_pos hmark, mark, Nat.add_sub_cancel_left]

theorem fillId_of_not_isMark {id : Nat} (h : ¬ IsMark id) : fillId mem id = id := if_neg h

theorem fillSocket_of_not_isMark {i : Socket} (h : ¬ IsMark i.id) : fillSocket mem i = i := by
  show ({ i with id := fillId mem i.id } : Socket) = i
  rw [fillId_of_not_isMark mem h]

/-- Sockets with inodes stay as they are. -/
theorem map_fillSocket_of_not_isMark {socks : List Socket} (h : ∀ i ∈ socks, ¬ IsMark i.id) :
    socks.map (fillSocket mem) = socks :=
  (List.map_congr_left fun i hi => fillSocket_of_not_isMark mem (h i hi)).trans (List.map_id' socks)

@[simp]
theorem getSource_fillSocket (i : Socket) : (fillSocket mem i).getSource = i.getSource := rfl

@[simp]
theorem sources_fillService (s : Service) : (fillService mem s).sources = s.sources := by
  show (s.sockets.map (fillSocket mem)).map Socket.getSource = _
  rw [List.map_map]
  rfl

@[simp]
theorem haveSocketSource_fillService (s : Service) (source : String) :
    (fillService mem s).haveSocketSource source = s.haveSocketSource source := by
  rw [Bool.eq_iff_iff, Service.haveSocketSource_iff, Service.haveSocketSource_iff,
    sources_fillService]

theorem equals_fillService (t s : Service) : t.equals (fillService mem s) = t.equals s := by
  unfold Service.equals
  simp only [haveSocketSource_fillService]
  rfl

/-! ### The operations that never look at an identifier -/

section Service
variable (os : OsState) (s : Service)

theorem setSocket_fillService (sock : Socket) :
    (fillService mem s).setSocket (fillSocket mem sock) = fillService mem (s.setSocket sock) := by
  have hsockets : (fillService mem s).sockets = s.sockets.map (fillSocket mem) := rfl
  have hsources := sources_fillService mem s
  have hfields := Service.setSocket_eq (fillService mem s) (fillSocket mem sock)
  have hsame := Service.setSocket_eq s sock
  have hkey : ((fillService mem s).setSocket (fillSocket mem sock)).uniqName
      = (s.setSocket sock).uniqName := by
    rw [Service.uniqName_setSocket, Service.uniqName_setSocket]
    simp only [hsockets, List.map_eq_nil_iff]
    rfl
  have hlist : ((fillService mem s).setSocket (fillSocket mem sock)).sockets
      = (s.setSocket sock).sockets.map (fillSocket mem) := by
    rw [Service.sockets_setSocket, Service.sockets_setSocket, hsources, getSource_fillSocket,
      hsockets]
    split
    · rfl
    · rw [List.map_append, List.map_singleton]
  rw [hfields, hkey, hlist]
  conv_rhs => rw [hsame]
  rfl

theorem replaceSocket_fillService (sock : Socket) :
    (fillService mem s).replaceSocket (fillSocket mem sock)
      = fillService mem (s.replaceSocket sock) := by
  have herase : (s.sockets.map (fillSocket mem)).eraseP (fun j => j.getSource == sock.getSource)
      = (s.sockets.eraseP (fun j => j.getSource == sock.getSource)).map (fillSocket mem) := by
    rw [List.eraseP_map]
    rfl
  unfold Service.replaceSocket
  rw [← setSocket_fillService]
  show Service.setSocket { s with sockets := (s.sockets.map (fillSocket mem)).eraseP _ } _ = _
  rw [getSource_fillSocket, herase]
  rfl

theorem addSubProcess_fillService (p : Process) :
    (fillService mem s).addSubProcess p = fillService mem (s.addSubProcess p) := by
  show (if s.subProcess.any (fun i => i.pid == p.pid) then _ else _)
    = fillService mem (if s.subProcess.any (fun i => i.pid == p.pid) then s else _)
  split <;> rfl

theorem adoptChildren_fillService (pid : Nat) :
    (fillService mem s).adoptChildren os pid = fillService mem (s.adoptChildren os pid) := by
  unfold Service.adoptChildren
  dsimp only
  rw [show (fillService mem s).mainProcess = s.mainProcess from rfl,
    List.foldl_hom (fillService mem) (fun s p => addSubProcess_fillService mem s p)]
  rfl

theorem named_fillService (p : Process) :
    (fillService mem s).named p = fillService mem (s.named p) := by
  show (if s.mainProcess = [] ∧ s.name = "" then _ else _)
    = fillService mem (if s.mainProcess = [] ∧ s.name = "" then _ else s)
  split <;> rfl

theorem addMainProcess_fillService (p : Process) :
    (fillService mem s).addMainProcess os p = fillService mem (s.addMainProcess os p) := by
  have hadd : ∀ t : Service, t.addMainProcess os p
      = if p.pid ≠ 0 then
          if (t.named p).mainProcess.any (fun i => i.pid == p.getPPID os) then
            (t.named p).addSubProcess p
          else { (t.named p).adoptChildren os p.pid with
            mainProcess := ((t.named p).adoptChildren os p.pid).mainProcess ++ [p] }
        else { t.named p with mainProcess := (t.named p).mainProcess ++ [p] } := fun t => rfl
  rw [hadd, hadd, named_fillService, addSubProcess_fillService, adoptChildren_fillService]
  show (if p.pid ≠ 0 then
      if (s.named p).mainProcess.any (fun i => i.pid == p.getPPID os) then _ else _ else _) = _
  split
  · split <;> rfl
  · rfl

theorem updateMainProcess_fillService (p : Process) :
    (fillService mem s).updateMainProcess os p = fillService mem (s.updateMainProcess os p) :=
  addMainProcess_fillService mem os (s.withoutOutdated os p) p

theorem setSocketsOf_fillService (pid : Nat) :
    (fillService mem s).setSocketsOf os pid = fillService mem (s.setSocketsOf os pid) := by
  show (if s.mainProcess.any (fun p => p.pid == pid) then _ else _)
    = fillService mem (if s.mainProcess.any (fun p => p.pid == pid) then _ else _)
  split <;> rfl

/-- A merge of a service whose sockets have inodes. -/
theorem updateFrom_fillService {src : Service} (hsrc : ∀ i ∈ src.sockets, ¬ IsMark i.id) :
    (fillService mem s).updateFrom os src = fillService mem (s.updateFrom os src) := by
  have hprocesses : src.mainProcess.foldl (Service.updateMainProcess os) (fillService mem s)
      = fillService mem (src.mainProcess.foldl (Service.updateMainProcess os) s) :=
    List.foldl_hom (fillService mem) fun s p => updateMainProcess_fillService mem os s p
  have hsockets : ∀ t : Service, src.sockets.foldl Service.replaceSocket (fillService mem t)
      = fillService mem (src.sockets.foldl Service.replaceSocket t) := by
    intro t
    conv_lhs => rw [← map_fillSocket_of_not_isMark mem hsrc, List.foldl_map]
    exact List.foldl_hom (fillService mem) fun s i => replaceSocket_fillService mem s i
  unfold Service.updateFrom
  dsimp only
  rw [hprocesses, hsockets]
  rfl

/-- The sockets a service holds are set: their inodes are compared, and no entry's. -/
theorem associate_fillService {socks : List Socket} (hsocks : ∀ i ∈ socks, ¬ IsMark i.id) :
    associate os socks (fillService mem s) = fillService mem (associate os socks s) := by
  unfold associate
  induction socks generalizing s with
  | nil => rfl
  | cons i socks ih =>
      have hi := fillSocket_of_not_isMark mem (hsocks i List.mem_cons_self)
      have hstep : (if (fillService mem s).haveSocket os i.id then (fillService mem s).setSocket i
          else fillService mem s)
          = fillService mem (if s.haveSocket os i.id then s.setSocket i else s) := by
        have hset := setSocket_fillService mem s i
        rw [hi] at hset
        show (if s.haveSocket os i.id then _ else _) = _
        rw [hset]
        split <;> rfl
      rw [List.foldl_cons, List.foldl_cons, hstep]
      exact ih _ fun j hj => hsocks j (List.mem_cons_of_mem i hj)

theorem updateKnown_fillService {socks : List Socket} (hsocks : ∀ i ∈ socks, ¬ IsMark i.id)
    (pid : Nat) : updateKnown os socks pid (fillService mem s)
      = fillService mem (updateKnown os socks pid s) := by
  unfold updateKnown
  rw [setSocketsOf_fillService, associate_fillService mem os _ hsocks]

end Service

/-! ### The constructor -/

theorem ofSource_fillId (id : Nat) (text : String) :
    Socket.ofSource (fillId mem id) text = (Socket.ofSource id text).map (fillSocket mem) := by
  unfold Socket.ofSource
  dsimp only
  cases Text.substr text (Text.posAdd (Text.rfind text ':') 1) with
  | none => rfl
  | some port =>
      cases Text.substrN text (Text.posAdd (Text.find text ':' 0) 3)
          (Text.posSub (Text.rfind text ':') (Text.posAdd (Text.find text ':' 0) 3)
            text.length) with
      | none => rfl
      | some ip =>
          simp only [Option.bind_eq_bind, Option.bind_some]
          split
          · rfl
          · -- A group that throws ends both.
            simp only [Option.pure_def, Option.map_bind, Function.comp_def, Option.map_some]
            rfl

theorem mapM_ofSource_fillId (ids : String → Nat) (texts : List String) :
    texts.mapM (fun text => Socket.ofSource (fillId mem (ids text)) text)
      = (texts.mapM (fun text => Socket.ofSource (ids text) text)).map
          (List.map (fillSocket mem)) := by
  induction texts with
  | nil => rfl
  | cons text texts ih =>
      rw [List.mapM_cons, List.mapM_cons, ih, ofSource_fillId]
      cases Socket.ofSource (ids text) text with
      | none => rfl
      | some i => cases texts.mapM (fun text => Socket.ofSource (ids text) text) <;> rfl

/-- What the constructor does once the sockets are set. -/
def finish (os : OsState) (host : String) (cfg : Service.Config) (s : Service) : Service :=
  let s := { s with
    uniqName := cfg.uniqName.getD s.uniqName
    host := cfg.host.getD s.host }
  ((cfg.process.getD []).foldl (fun s path => s.addMainProcess os (Process.ofPath path))
    s).setDefaultHost host

theorem ofConfig_eq (os : OsState) (host : String) (ids : String → Nat) (cfg : Service.Config) :
    Service.ofConfig os host ids cfg
      = ((cfg.sockets.getD []).mapM (fun text => Socket.ofSource (ids text) text)).map
          (fun socks => finish os host cfg
            (socks.foldl Service.setSocket { collectorsCfg := cfg.collectors })) := by
  unfold Service.ofConfig finish
  cases (cfg.sockets.getD []).mapM (fun text => Socket.ofSource (ids text) text) with
  | none => rfl
  | some socks => cases cfg.uniqName <;> cases cfg.host <;> rfl

theorem finish_fillService (os : OsState) (host : String) (cfg : Service.Config) (s : Service) :
    finish os host cfg (fillService mem s) = fillService mem (finish os host cfg s) := by
  have hprocesses : ∀ t : Service, (cfg.process.getD []).foldl
      (fun s path => s.addMainProcess os (Process.ofPath path)) (fillService mem t)
      = fillService mem ((cfg.process.getD []).foldl
          (fun s path => s.addMainProcess os (Process.ofPath path)) t) := fun t =>
    List.foldl_hom (fillService mem) fun s path =>
      addMainProcess_fillService mem os s (Process.ofPath path)
  have hhost : ∀ t : Service, (fillService mem t).setDefaultHost host
      = fillService mem (t.setDefaultHost host) := by
    intro t
    show (if t.host ≠ "" then _ else _) = fillService mem (if t.host ≠ "" then t else _)
    split <;> rfl
  exact (congrArg (Service.setDefaultHost host) (hprocesses { s with
    uniqName := cfg.uniqName.getD s.uniqName
    host := cfg.host.getD s.host })).trans (hhost _)

/-- A service read from a file, with the memory and with the marks. -/
theorem ofConfig_fillService (os : OsState) (host : String) (ids : String → Nat)
    (cfg : Service.Config) :
    Service.ofConfig os host (fun text => mem (ids text)) cfg
      = (Service.ofConfig os host (fun text => mark (ids text)) cfg).map (fillService mem) := by
  have hread := mapM_ofSource_fillId mem (fun text => mark (ids text)) (cfg.sockets.getD [])
  simp only [fillId_mark] at hread
  have hsockets : ∀ (s : Service) (socks : List Socket),
      (socks.map (fillSocket mem)).foldl Service.setSocket (fillService mem s)
        = fillService mem (socks.foldl Service.setSocket s) := by
    intro s socks
    rw [List.foldl_map]
    exact List.foldl_hom (fillService mem) fun s i => setSocket_fillService mem s i
  rw [ofConfig_eq, ofConfig_eq, hread, Option.map_map, Option.map_map]
  congr 1
  funext socks
  exact (congrArg (finish os host cfg) (hsockets { collectorsCfg := cfg.collectors } socks)).trans
    (finish_fillService mem os host cfg _)

end Fill

/-! ### The comparisons -/

/-- Whether a live main process holds the socket of the entry is up to the memory: the
identifier is unset, and a live main process holds some socket. -/
def Undecided (os : OsState) (s : Service) (i : Socket) : Prop :=
  IsMark i.id ∧ ∃ p ∈ s.mainProcess, p.getStatus os = true ∧ p.sockets ≠ []

instance (os : OsState) (s : Service) (i : Socket) : Decidable (Undecided os s i) :=
  inferInstanceAs (Decidable (_ ∧ ∃ p ∈ s.mainProcess, _))

section Compare
variable (mem : Nat → Nat) (os : OsState) {s : Service}

/-- A decided entry compares with the memory as with the mark. -/
theorem haveSocket_fillId {i : Socket} (h : ¬ Undecided os s i) :
    s.haveSocket os (fillId mem i.id) = s.haveSocket os i.id := by
  by_cases hmark : IsMark i.id
  · -- No live main process holds anything, so both inodes are missed.
    have hmiss : ∀ id, s.haveSocket os id = false := by
      intro id
      rw [← Bool.not_eq_true, Service.haveSocket_iff]
      rintro ⟨p, hp, halive, hheld⟩
      refine h ⟨hmark, p, hp, halive, fun hnil => ?_⟩
      rw [Process.haveSocket, hnil] at hheld
      exact absurd hheld (by simp)
    rw [hmiss, hmiss]
  · rw [fillId_of_not_isMark mem hmark]

theorem needSocketFrom_fillService {other : Service}
    (h : ∀ i ∈ s.sockets, Undecided os s i → i.getSource ∉ other.sources) :
    (fillService mem s).needSocketFrom os other = s.needSocketFrom os other := by
  show (s.sockets.map (fillSocket mem)).any (fun i => !s.haveSocket os i.id &&
    other.sockets.any (fun j => j.getSource == i.getSource)) = s.sockets.any _
  rw [List.any_map, Bool.eq_iff_iff, List.any_eq_true, List.any_eq_true]
  refine exists_congr fun i => and_congr_right fun hi => ?_
  show (!s.haveSocket os (fillId mem i.id) &&
      other.sockets.any (fun j => j.getSource == i.getSource)) = true ↔ _
  by_cases hundecided : Undecided os s i
  · -- The other service has no such source.
    have hno : other.sockets.any (fun j => j.getSource == i.getSource) = false := by
      have hsource := h i hi hundecided
      unfold Service.sources at hsource
      simpa using hsource
    rw [hno, Bool.and_false, Bool.and_false]
  · rw [haveSocket_fillId mem os hundecided]

end Compare

/-! ### The manager -/

section Manager
variable (mem : Nat → Nat) (env : Env) (os : OsState) (m : ServicesManager)

/-- Templates are written from the source texts. -/
theorem saveConfigTemplate_fillService (s : Service) :
    (fillManager mem m).saveConfigTemplate (fillService mem s)
      = fillManager mem (m.saveConfigTemplate s) := by
  have hconfig : (fillService mem s).setDefaultConfig = s.setDefaultConfig := by
    have hsources := sources_fillService mem s
    unfold Service.sources at hsources
    unfold Service.setDefaultConfig
    rw [hsources]
    rfl
  show ({ fillManager mem m with templates := m.templates.filter _
      ++ [(s.templateName, (fillService mem s).setDefaultConfig)] } : ServicesManager) = _
  rw [hconfig]
  rfl

theorem havePID_fillManager (pid : Nat) : (fillManager mem m).havePID pid = m.havePID pid := by
  show (m.services.map (fillService mem)).any (fun s => s.havePID pid) = m.services.any _
  rw [List.any_map]
  rfl

theorem modifyFirst_havePID_fillService (pid : Nat) {f : Service → Service}
    (hf : ∀ s, f (fillService mem s) = fillService mem (f s)) :
    modifyFirst (fun s => s.havePID pid) f (m.services.map (fillService mem))
      = (modifyFirst (fun s => s.havePID pid) f m.services).map (fillService mem) :=
  modifyFirst_map (fillService mem) (fun _ _ => rfl) hf

/-- The search for a service that misses a socket looks at no undecided entry whose source
the new service has. -/
def DecidedSearch (add : Service) : Prop :=
  m.services.any (fun s => add.equals s) = false →
    ∀ s, Searched (fun s => s.needSocketFrom os add) m.services s →
      ∀ i ∈ s.sockets, Undecided os s i → i.getSource ∉ add.sources

theorem addService_fillManager {serv : Service} (hserv : ∀ i ∈ serv.sockets, ¬ IsMark i.id)
    (h : DecidedSearch os m (enhance env os serv)) :
    (fillManager mem m).addService env os serv = fillManager mem (m.addService env os serv) := by
  have hids : ∀ i ∈ (enhance env os serv).sockets, ¬ IsMark i.id := by
    rw [sockets_enhance]
    exact hserv
  have hequals := fun s => equals_fillService mem (enhance env os serv) s
  have hmerge := fun s => updateFrom_fillService mem os s hids
  have hsame : fillService mem (enhance env os serv) = enhance env os serv := by
    show ({ enhance env os serv with sockets := _ } : Service) = _
    rw [map_fillSocket_of_not_isMark mem hids]
  have hany := any_map_of_searched (fillService mem) (l := m.services) (fun s _ => hequals s)
  unfold addService
  dsimp only
  rw [show (fillManager mem m).services = m.services.map (fillService mem) from rfl, hany]
  cases hcase : m.services.any (fun s => (enhance env os serv).equals s) with
  | true =>
      rw [if_pos rfl, if_pos rfl, modifyFirst_map (fillService mem) (fun s _ => hequals s) hmerge]
      rfl
  | false =>
      have hneed := fun s hs => needSocketFrom_fillService mem os (h hcase s hs)
      have hfound : (m.services.map (fillService mem)).any
          (fun s => s.needSocketFrom os (enhance env os serv))
          = m.services.any (fun s => s.needSocketFrom os (enhance env os serv)) :=
        any_map_of_searched (fillService mem) hneed
      simp only [Bool.false_eq_true, if_false]
      rw [hfound]
      cases m.services.any (fun s => s.needSocketFrom os (enhance env os serv)) with
      | true =>
          rw [if_pos rfl, if_pos rfl, modifyFirst_map (fillService mem) hneed hmerge]
          rfl
      | false =>
          have hsave := saveConfigTemplate_fillService mem m (enhance env os serv)
          rw [hsame] at hsave
          simp only [Bool.false_eq_true, if_false]
          rw [hsave]
          show ({ fillManager mem (m.saveConfigTemplate (enhance env os serv)) with
            services := m.services.map (fillService mem) ++ [enhance env os serv] }
              : ServicesManager) = { fillManager mem (m.saveConfigTemplate (enhance env os serv))
                with services := (m.services ++ [enhance env os serv]).map (fillService mem) }
          rw [List.map_append, List.map_singleton, hsame]

end Manager

/-! ### The steps -/

/-- An inode read from a line has 32 bits. -/
theorem not_isMark_ofLine {line type : String} {i : Socket} (h : Socket.ofLine line type = some i) :
    ¬ IsMark i.id := by
  unfold Socket.ofLine at h
  simp only [Option.bind_eq_bind, Option.pure_def, Option.bind_eq_some_iff,
    Option.some.injEq] at h
  obtain ⟨_, _, _, _, _, _, _, _, word, _, rfl⟩ := h
  unfold IsMark Text.toUInt32
  dsimp only
  omega

theorem not_isMark_of_scanLine {ignore : Bool} {type line : String} {i : Socket}
    (h : scanLine ignore type line = some (some i)) : ¬ IsMark i.id := by
  unfold scanLine at h
  obtain ⟨state, -, h⟩ := Option.bind_eq_some_iff.mp h
  split at h
  · exact absurd (Option.some.inj h) (by simp)
  · split at h
    · exact absurd (Option.some.inj h) (by simp)
    · obtain ⟨j, hj, h⟩ := Option.bind_eq_some_iff.mp h
      split at h
      · exact absurd (Option.some.inj h) (by simp)
      · obtain rfl : j = i := Option.some.inj (Option.some.inj h)
        exact not_isMark_ofLine hj

/-- So has the inode of a scanned socket, which a line of one of the files gave. -/
theorem not_isMark_of_scan {env : Env} {os : OsState} {socks : List Socket}
    (h : scan env os = some socks) : ∀ i ∈ socks, ¬ IsMark i.id := by
  unfold scan at h
  obtain ⟨kept, hkept, h⟩ := Option.bind_eq_some_iff.mp h
  obtain rfl := Option.some.inj h
  intro i hi
  obtain ⟨l, hl, hil⟩ := List.mem_flatten.mp hi
  obtain ⟨lines, hlines, rfl⟩ := List.mem_map.mp hl
  obtain ⟨line, hline, rfl⟩ := List.mem_filterMap.mp hil
  obtain ⟨type, -, htype⟩ := Fallible.exists_of_mem_mapM hkept hlines
  obtain ⟨text, -, htext⟩ := Fallible.exists_of_mem_mapM htype hline
  exact not_isMark_of_scanLine htext

/-- What a script sees of the service it is asked about. -/
def SeesApiOnly (isBlackout : String → Service → Bool) : Prop :=
  ∀ file s t, (∀ pid, s.havePID pid = t.havePID pid) → s.type = t.type → s.subType = t.subType →
    s.name = t.name → s.getID = t.getID → isBlackout file s = isBlackout file t

/-- The step is one of the agent: a visit is given what a scan found, and the Lua handlers
see what their interface shows. -/
def FromAgent : Act → Prop
  | .load .. => True
  | .visit env _ socks _ => ∃ scanned, scan env scanned = some socks
  | .unit .. => True
  | .status env .. => SeesApiOnly env.luaBlackout

/-- The step looks at no undecided entry. A visit compares the entries of the stored
services when it adds a service, and a status request those of its service. -/
def Quiet (m : ServicesManager) : Act → Prop
  | .load .. => True
  | .visit env os socks pid =>
      m.havePID pid = false → m.havePID (os.ppid pid) = false →
        matchList (Process.ofPid os pid) env.socketBlackList = false →
        DecidedSearch os m (candidate env os socks pid)
  | .unit .. => True
  | .status _ os j => ∀ s, m.services[j]? = some s → ∀ i ∈ s.sockets, ¬ Undecided os s i

section Step
variable (mem : Nat → Nat) (env : Env) (os : OsState) (m : ServicesManager)

theorem mem_sockets_newService {socks : List Socket} {p : Process} {it : Socket} (hit : it ∈ socks)
    {e : Socket} (he : e ∈ (newService env os socks p it).sockets) : e ∈ socks := by
  rw [newService_eq] at he
  rcases mem_sockets_associate os socks _ he with he | ⟨he, -⟩
  · unfold firstService at he
    rw [Service.sockets_addMainProcess, Service.sockets_setSocket, sockets_new] at he
    split at he
    · exact absurd he List.not_mem_nil
    · rw [List.nil_append, List.mem_singleton] at he
      exact he ▸ hit
  · exact he

/-- A known process: its service is updated, and the template written anew. -/
theorem updateKnown_fillManager {socks : List Socket} (hsocks : ∀ i ∈ socks, ¬ IsMark i.id)
    (pid : Nat) (hpid : m.havePID pid = true) :
    visit env os socks (fillManager mem m) pid = fillManager mem (visit env os socks m pid) := by
  have hknown := modifyFirst_havePID_fillService mem m pid
    fun s => updateKnown_fillService mem os s hsocks pid
  have hfill : (fun s => s.havePID pid) ∘ fillService mem = fun s => s.havePID pid := rfl
  unfold visit
  dsimp only
  rw [havePID_fillManager, if_pos hpid, if_pos hpid,
    show (fillManager mem m).services = m.services.map (fillService mem) from rfl, hknown]
  unfold getService
  dsimp only
  rw [List.find?_map, hfill]
  cases List.find? (fun s => s.havePID pid)
      (modifyFirst (fun s => s.havePID pid) (updateKnown os socks pid) m.services) with
  | none => rfl
  | some serv => exact saveConfigTemplate_fillService mem { m with
      services := modifyFirst (fun s => s.havePID pid) (updateKnown os socks pid)
        m.services } serv

/-- A child of a known process: it becomes a subprocess there. -/
theorem handleSubProcess_fillManager (p : Process) :
    (fillManager mem m).handleSubProcess os p = fillManager mem (m.handleSubProcess os p) := by
  have hchild := modifyFirst_havePID_fillService mem m (p.getPPID os)
    (f := fun s => s.addSubProcess p) fun s => addSubProcess_fillService mem s p
  unfold handleSubProcess
  dsimp only
  rw [show (fillManager mem m).services = m.services.map (fillService mem) from rfl, hchild]
  rfl

theorem visit_fillManager {socks : List Socket} (hsocks : ∀ i ∈ socks, ¬ IsMark i.id) (pid : Nat)
    (h : Quiet m (.visit env os socks pid)) :
    visit env os socks (fillManager mem m) pid = fillManager mem (visit env os socks m pid) := by
  have hppid : (Process.ofPid os pid).getPPID os = os.ppid pid := by
    rw [Process.getPPID, Process.pid_ofPid]
  cases hpid : m.havePID pid with
  | true => exact updateKnown_fillManager mem env os m hsocks pid hpid
  | false =>
      unfold visit
      dsimp only
      rw [havePID_fillManager, havePID_fillManager, hppid, hpid]
      simp only [Bool.false_eq_true, if_false]
      cases hparent : m.havePID (os.ppid pid) with
      | true =>
          rw [if_pos rfl, if_pos rfl]
          exact handleSubProcess_fillManager mem os m (Process.ofPid os pid)
      | false =>
          simp only [Bool.false_eq_true, if_false]
          cases hblack : matchList (Process.ofPid os pid) env.socketBlackList with
          | true => rfl
          | false =>
              simp only [Bool.false_eq_true, if_false]
              have hsearch := h hpid hparent hblack
              unfold candidate firstHeld detected at hsearch
              cases hfind : socks.find?
                  (fun it => ((Process.ofPid os pid).setSockets os).haveSocket it.id) with
              | none => rfl
              | some it =>
                  rw [hfind] at hsearch
                  exact addService_fillManager mem env os m
                    (fun i hi => hsocks i (mem_sockets_newService env os
                      (List.mem_of_find?_eq_some hfind) hi)) hsearch

theorem addUnit_fillManager (small : String) :
    SystemdDetector.addUnit env os (fillManager mem m) small
      = fillManager mem (SystemdDetector.addUnit env os m small) := by
  unfold SystemdDetector.addUnit
  dsimp only
  rw [havePID_fillManager]
  split
  · have hattach := modifyFirst_havePID_fillService mem m
      (os.bus.execMainPID (SystemdDetector.objectPath small))
      (f := SystemdDetector.attach small) fun s => by
        show (if s.haveHandler then _ else _)
          = fillService mem (if s.haveHandler then s else _)
        split <;> rfl
    show ({ fillManager mem m with services := _ } : ServicesManager) = _
    exact congrArg (fun services => ({ fillManager mem m with services } : ServicesManager)) hattach
  · split
    · rfl
    · -- A unit brings no socket, so no stored service needs one of it.
      have hnone : ∀ p, (SystemdDetector.newService env os small p).sockets = [] :=
        fun p => (SystemdDetector.lists_newService env os small p).2.2
      refine addService_fillManager mem env os m (fun i hi => ?_) fun _ s _ i _ _ hsource => ?_
      · rw [hnone] at hi
        exact absurd hi List.not_mem_nil
      · rw [sources_enhance, Service.sources, hnone] at hsource
        exact absurd hsource List.not_mem_nil

/-- The handler answers as with the marks. -/
theorem isBlackout_fillService (h : Handler) (henv : SeesApiOnly env.luaBlackout) (s : Service) :
    h.isBlackout env os (fillService mem s)
      = (h.isBlackout env os s).map (fun r => (fillService mem r.1, r.2)) := by
  cases h with
  | lua file =>
      show some (fillService mem s, env.luaBlackout file (fillService mem s)) = _
      rw [henv file (fillService mem s) s (fun _ => rfl) rfl rfl rfl rfl]
      rfl
  | systemd id =>
      unfold Handler.isBlackout
      dsimp only
      split
      · rfl
      · cases os.bus.activeState id with
        | none => rfl
        | some res =>
            simp only [Option.bind_eq_bind, Option.bind_some, Option.pure_def]
            split
            · rw [show (fillService mem s).havePID = s.havePID from rfl,
                updateMainProcess_fillService]
              split
              · rfl
              · split <;> rfl
            · rfl

/-- A process that is added brings no descriptors, so it decides no entry. -/
theorem not_undecided_updateMainProcess {s : Service} {pid : Nat} {i : Socket}
    (h : ¬ Undecided os s i) :
    ¬ Undecided os (s.updateMainProcess os (Process.ofPid os pid)) i := by
  have hadd : ∀ (t : Service) {q : Process},
      q ∈ (t.addMainProcess os (Process.ofPid os pid)).mainProcess →
        q ∈ t.mainProcess ∨ q = Process.ofPid os pid := by
    intro t q hq
    rcases Service.addMainProcess_cases os t (Process.ofPid os pid) with
      ⟨-, -, heq⟩ | ⟨-, -, heq⟩ | ⟨-, heq⟩
    · rw [heq, Service.mainProcess_addSubProcess] at hq
      exact .inl hq
    · rw [heq] at hq
      exact (List.mem_append.mp hq).imp (fun hq => (List.mem_filter.mp hq).1) List.mem_singleton.mp
    · rw [heq] at hq
      exact (List.mem_append.mp hq).imp_right List.mem_singleton.mp
  rintro ⟨hmark, q, hq, halive, hne⟩
  rw [Service.updateMainProcess_eq] at hq
  rcases hadd _ hq with hq | rfl
  · exact h ⟨hmark, q, List.eraseP_subset hq, halive, hne⟩
  · exact hne (Process.sockets_ofPid os pid)

/-- The first part of the document function, where no entry is undecided. -/
theorem askHandler_fillService (henv : SeesApiOnly env.luaBlackout) {s : Service}
    (h : ∀ i ∈ s.sockets, ¬ Undecided os s i) :
    (fillService mem s).askHandler env os
      = (s.askHandler env os).map (fun r => (fillService mem r.1, r.2)) := by
  have hfailed : (fillService mem s).failed os = s.failed os := by
    show ((s.sockets.map (fillSocket mem)).any (fun i => !s.haveSocket os i.id) ||
      s.mainProcess.any (fun i => !i.getStatus os)) = _
    rw [List.any_map]
    unfold Service.failed
    congr 1
    rw [Bool.eq_iff_iff, List.any_eq_true, List.any_eq_true]
    refine exists_congr fun i => and_congr_right fun hi => ?_
    show (!s.haveSocket os (fillId mem i.id)) = true ↔ _
    rw [haveSocket_fillId mem os (h i hi)]
  have hhandler : (fillService mem s).handler = s.handler := rfl
  unfold Service.askHandler
  rw [hfailed, hhandler]
  cases s.handler with
  | none => rfl
  | some hdl =>
      dsimp only
      split
      · exact isBlackout_fillService mem env os hdl henv s
      · rfl

/-- The service the document is built from has no undecided entry either. -/
theorem not_undecided_askHandler {s : Service} (h : ∀ i ∈ s.sockets, ¬ Undecided os s i)
    {r : Service × Bool} (hr : s.askHandler env os = some r) :
    ∀ i ∈ r.1.sockets, ¬ Undecided os r.1 i := by
  rcases askHandler_cases env os s with ⟨-, hsame⟩ | ⟨pid, b, -, hask⟩
  · rw [hsame r hr]
    exact h
  · obtain rfl := Option.some.inj (hask.symm.trans hr)
    intro i hi
    dsimp only at hi ⊢
    rw [Service.sockets_updateMainProcess] at hi
    exact not_undecided_updateMainProcess os (h i hi)

theorem getJsonStatus_fillService (henv : SeesApiOnly env.luaBlackout) {s : Service}
    (h : ∀ i ∈ s.sockets, ¬ Undecided os s i) :
    (fillService mem s).getJsonStatus env os
      = (s.getJsonStatus env os).map (fun r => (fillService mem r.1, r.2)) := by
  unfold Service.getJsonStatus
  rw [askHandler_fillService mem env os henv h]
  cases hask : s.askHandler env os with
  | none => rfl
  | some r =>
      have hdecided := not_undecided_askHandler env os h hask
      have hentries : (r.1.sockets.map (fillSocket mem)).map
          ((fillService mem r.1).socketStatus os r.2)
          = r.1.sockets.map (r.1.socketStatus os r.2) := by
        rw [List.map_map]
        refine List.map_congr_left fun i hi => ?_
        have hid := haveSocket_fillId mem os (hdecided i hi)
        show ({ name := i.getSource
                status := if r.1.haveSocket os (fillId mem i.id) then "ok"
                  else Service.failedText r.2 } : SocketStatus) = _
        rw [hid]
        rfl
      simp only [Option.map_some, Option.bind_eq_bind, Option.bind_some, Option.pure_def,
        Option.some.injEq, Prod.mk.injEq]
      refine ⟨rfl, ?_⟩
      rw [show (fillService mem r.1).sockets = r.1.sockets.map (fillSocket mem) from rfl, hentries]
      rfl

theorem statusOf_fillManager (henv : SeesApiOnly env.luaBlackout) (j : Nat)
    (h : Quiet m (.status env os j)) :
    (fillManager mem m).statusOf env os j
      = (m.statusOf env os j).map (fun r => (fillManager mem r.1, r.2)) := by
  unfold statusOf
  rw [show (fillManager mem m).services = m.services.map (fillService mem) from rfl,
    List.getElem?_map]
  cases hs : m.services[j]? with
  | none => rfl
  | some s =>
      simp only [Option.map_some, Option.bind_eq_bind, Option.bind_some, Option.pure_def]
      rw [getJsonStatus_fillService mem env os henv (h s hs)]
      cases s.getJsonStatus env os with
      | none => rfl
      | some r =>
          simp only [Option.map_some, Option.bind_some]
          rw [← List.map_set]
          rfl

end Step

/-! ### Runs -/

section Run
variable (mem : Nat → Nat)

/-- The document a step publishes. -/
def document (m : ServicesManager) : Act → List (Option StatusDoc)
  | .status env os j => [(m.statusOf env os j).map Prod.snd]
  | _ => []

/-- The status documents of a run, in order. `none` stands for an exception. -/
def documents : ServicesManager → List Act → List (Option StatusDoc)
  | _, [] => []
  | m, a :: as => document m a ++ documents (Act.step m a) as

/-- A quiet step with the memory is the step with the marks, filled in. -/
theorem step_fillManager {m : ServicesManager} {a : Act} (ha : FromAgent a)
    (h : Quiet m (fillAct mark a)) :
    Act.step (fillManager mem m) (fillAct mem a) = fillManager mem (Act.step m (fillAct mark a)) ∧
      document (fillManager mem m) (fillAct mem a) = document m (fillAct mark a) := by
  cases a with
  | load os host ids cfg =>
      refine ⟨?_, rfl⟩
      have hload := congrArg Option.toList (ofConfig_fillService mem os host ids cfg)
      rw [Option.toList_map] at hload
      exact congrArg (fun services => ({ fillManager mem m with services } : ServicesManager))
        ((congrArg (m.services.map (fillService mem) ++ ·) hload).trans (List.map_append ..).symm)
  | visit env os socks pid =>
      obtain ⟨scanned, hscan⟩ := ha
      exact ⟨visit_fillManager mem env os m (not_isMark_of_scan hscan) pid h, rfl⟩
  | unit env os small => exact ⟨addUnit_fillManager mem env os m small, rfl⟩
  | status env os j =>
      have hstatus := statusOf_fillManager mem env os m ha j h
      constructor
      · show ((statusOf env os (fillManager mem m) j).map Prod.fst).getD (fillManager mem m)
          = fillManager mem (((statusOf env os m j).map Prod.fst).getD m)
        rw [hstatus]
        cases statusOf env os m j <;> rfl
      · show [(statusOf env os (fillManager mem m) j).map Prod.snd]
          = [(statusOf env os m j).map Prod.snd]
        rw [hstatus]
        cases statusOf env os m j <;> rfl

/-- A run of quiet steps publishes the documents of the marked run. -/
theorem documents_fillAct (m : ServicesManager) (as : List Act) (has : ∀ a ∈ as, FromAgent a)
    (h : Meets Act.step Quiet m (as.map (fillAct mark))) :
    documents (fillManager mem m) (as.map (fillAct mem)) = documents m (as.map (fillAct mark)) := by
  induction as generalizing m with
  | nil => rfl
  | cons a as ih =>
      obtain ⟨hstep, hdocument⟩ := step_fillManager mem (has a List.mem_cons_self) h.1
      have hrest := ih _ (fun b hb => has b (List.mem_cons_of_mem a hb)) h.2
      show document (fillManager mem m) (fillAct mem a)
        ++ documents (Act.step (fillManager mem m) (fillAct mem a)) (as.map (fillAct mem)) = _
      rw [hstep, hdocument, hrest]
      rfl

end Run

/-- In a run of the agent that looks at no undecided entry, the status documents do not
depend on the memory. -/
theorem documents_of_quiet (as : List Act) (has : ∀ a ∈ as, FromAgent a)
    (h : Meets Act.step Quiet {} (as.map (fillAct mark))) (mem mem' : Nat → Nat) :
    documents {} (as.map (fillAct mem)) = documents {} (as.map (fillAct mem')) :=
  (documents_fillAct mem {} as has h).trans (documents_fillAct mem' {} as has h).symm

/-! ### A server that listens on a configured port -/

/-- The process 20 runs `httpd`, which listens on port 80 under the inode 7. It is the main
process of a unit. -/
def httpdRuns : OsState where
  names := ["20"]
  entry := fun pid => if pid = 20 then some {
      exe := some "/usr/sbin/httpd"
      stat := "20 (httpd) S 1"
      fd := some ["socket:[7]"] }
    else none
  net := fun type => if type = "tcp" then ["0: 00000000:0050 00000000:0000 0A 0 0 0 0 0 7"] else []
  bus := { execMainPID := fun unit =>
    if unit = SystemdDetector.objectPath "httpd_2eservice" then 20 else 0 }

/-- The socket the scan finds. -/
def httpdSocket : Socket := { id := 7, type := "tcp", source := { port := 80 } }

/-- The file of the service is read before the server runs. -/
def httpdLoad : Act :=
  .load {} "" (fun _ => 0)
    { sockets := some ["tcp://0.0.0.0:80"], process := some ["/usr/sbin/httpd"] }

/-- The socket detector finds the process. -/
def httpdVisit : Act := .visit {} httpdRuns [httpdSocket] 20

theorem fromAgent_httpdVisit : FromAgent httpdVisit := ⟨httpdRuns, by decide⟩

theorem fromAgent_status (os : OsState) (j : Nat) : FromAgent (.status {} os j) :=
  fun _ _ _ _ _ _ _ _ => rfl

/-- The process the visit finds is merged into the loaded service by its name and sockets,
and its socket replaces the entry: the document shows no memory. -/
theorem documents_httpd_visit :
    documents {} ([httpdLoad, httpdVisit, .status {} httpdRuns 0].map (fillAct fun _ => 7))
      = documents {} ([httpdLoad, httpdVisit, .status {} httpdRuns 0].map
          (fillAct fun _ => 5)) := by
  have hset : ∀ s ∈ (Run.exec Act.step {} ([httpdLoad, httpdVisit].map (fillAct mark))).services,
      ∀ i ∈ s.sockets, ¬ Undecided httpdRuns s i := by decide
  have hquiet : Meets Act.step Quiet {}
      ([httpdLoad, httpdVisit, .status {} httpdRuns 0].map (fillAct mark)) :=
    ⟨trivial, fun _ _ _ hnone => absurd hnone (by decide),
      fun s hs => hset s (List.mem_of_getElem? hs), trivial⟩
  refine documents_of_quiet [httpdLoad, httpdVisit, .status {} httpdRuns 0] ?_ hquiet _ _
  intro a ha
  simp only [List.mem_cons, List.not_mem_nil, or_false] at ha
  rcases ha with rfl | rfl | rfl
  · trivial
  · exact fromAgent_httpdVisit
  · exact fromAgent_status httpdRuns 0

/-- The unit brings the same process without its sockets. The visit then finds it known, and
`setSocket` keeps the loaded entry, whose identifier was never written. -/
theorem not_documents_eq_merged_unit :
    let run : List Act := [httpdLoad, .unit {} httpdRuns "httpd_2eservice", httpdVisit,
      .status {} httpdRuns 0]
    (∀ a ∈ run, FromAgent a) ∧
      documents {} (run.map (fillAct fun _ => 7))
        ≠ documents {} (run.map (fillAct fun _ => 5)) := by
  intro run
  refine ⟨?_, by decide⟩
  intro a ha
  simp only [run, List.mem_cons, List.not_mem_nil, or_false] at ha
  rcases ha with rfl | rfl | rfl | rfl
  · trivial
  · trivial
  · exact fromAgent_httpdVisit
  · exact fromAgent_status httpdRuns 0

end WatchedAgent.Proofs.UnsetIds
