import WatchedAgent.Proofs.Identifiers

/-!
# `WatchedAgent.Proofs.Collisions`: which detected services collide

A detected service has the base name of its executable, the type `unknown`, the key of its first
port or of its unit, and the ports its process holds. The enhancers may call `setName`, `setType`
and `setUniqKey` on it, and the last call of each counts (`Add.traits`).

`addService` leaves it to a stored service of the same name and type that has all its ports, or
else to one that has lost one of its ports. If there is none, it stores the service.

* `identified_iff`: over runs of `addService` from the empty manager the identifiers stay
  distinct, if and only if no call finds traits that collide (`Clear`).
* `not_identified_same_port`: two processes of one executable that share a port.
-/

set_option autoImplicit false

namespace WatchedAgent.Proofs

open WatchedAgent.Lib
open WatchedAgent.Lib.Run
open WatchedAgent.Model
open WatchedAgent.Model.ServicesManager

/-! ### The calls of the enhancers -/

/-- The calls of the systemd enhancer: the unit of the main process gives the key and the
handler, unless a handler is set. -/
def systemdCalls (os : OsState) (s : Service) : List SetterCall :=
  match s.getMainProcess with
  | none => []
  | some p =>
      let unit := os.bus.unitByPID p.pid
      if os.bus.haveBus = true ∧ s.haveHandler = false ∧ unit.length > 7
          ∧ "service".toList.isSuffixOf unit.toList = true then
        [.setUniqKey unit, .setHandlerObj (.systemd unit)]
      else []

/-- The calls of one enhancer on the service that it is given. -/
def callsOf (os : OsState) : Enhancer → Service → List SetterCall
  | .lua script, s => script s
  | .systemd, s => systemdCalls os s

/-- The calls of all enhancers, each on the service as those before have left it. -/
def allCalls (os : OsState) : List Enhancer → Service → List SetterCall
  | [], _ => []
  | e :: es, s =>
      callsOf os e s ++ allCalls os es ((callsOf os e s).foldl (fun s call => call.run s) s)

theorem systemdEnhance_eq_calls (os : OsState) (s : Service) :
    systemdEnhance os s = (systemdCalls os s).foldl (fun s call => call.run s) s := by
  unfold systemdEnhance systemdCalls
  cases s.getMainProcess with
  | none => split <;> rfl
  | some p =>
      dsimp only
      cases hbus : os.bus.haveBus with
      | false => rw [if_pos rfl, if_neg (fun h => Bool.noConfusion h.1)]; rfl
      | true =>
          rw [if_neg Bool.noConfusion]
          by_cases hunit : s.haveHandler = false ∧ (os.bus.unitByPID p.pid).length > 7
              ∧ "service".toList.isSuffixOf (os.bus.unitByPID p.pid).toList = true
          · rw [if_pos hunit, if_pos ⟨rfl, hunit⟩]
            rfl
          · rw [if_neg hunit, if_neg (fun h => hunit h.2)]
            rfl

/-- The enhancers do nothing but their calls. -/
theorem enhance_eq_calls (env : Env) (os : OsState) (s : Service) :
    enhance env os s = (allCalls os env.enhancers s).foldl (fun s call => call.run s) s := by
  generalize hes : env.enhancers = es
  induction es generalizing s env with
  | nil =>
      unfold enhance
      rw [hes]
      rfl
  | cons e es ih =>
      have hone : (e.enhance os s).1 = (callsOf os e s).foldl (fun s call => call.run s) s := by
        cases e with
        | lua script => rfl
        | systemd => exact systemdEnhance_eq_calls os s
      rw [enhance_cons e es env os s hes, ih { env with enhancers := es } _ rfl, hone, allCalls,
        List.foldl_append]

/-! ### What is found -/

/-- The name, the type and the unique key of a detected service. -/
structure Traits where
  name : String
  type : String
  key : String

namespace Traits

/-- What a setter does to them. -/
def call (t : Traits) : SetterCall → Traits
  | .setName name => { t with name }
  | .setType type => { t with type }
  | .setUniqKey key => { t with key }
  | _ => t

def ofService (s : Service) : Traits := { name := s.name, type := s.type, key := s.uniqName }

theorem ofService_run (s : Service) (call : SetterCall) :
    ofService (call.run s) = (ofService s).call call := by
  cases call <;> rfl

end Traits

namespace Add

/-- The process that the detector has found. -/
def process : Add → Process
  | socket _ _ _ p _ => p
  | unit _ _ _ p => p

/-- The source of the first port. A unit has no ports. -/
def firstPort : Add → Option String
  | socket _ _ _ _ it => some it.getSource
  | unit .. => none

/-- The sources of the ports: the first one, and those of the scanned sockets that the running
process holds. -/
def HasPort : Add → String → Prop
  | socket _ os socks p it, source => source = it.getSource ∨
      (p.getStatus os = true ∧ ∃ i ∈ socks, p.haveSocket i.id = true ∧ i.getSource = source)
  | unit .., _ => False

/-- The traits as they are found. -/
def found : Add → Traits
  | socket _ _ _ p it =>
      { name := p.baseName, type := "unknown", key := Service.uniqKeyOf it.getSource }
  | unit _ _ small p => { name := p.baseName, type := "unknown", key := small }

/-- The traits after the calls of the enhancers. -/
def traits (a : Add) : Traits := (allCalls a.os a.env.enhancers a.service).foldl Traits.call a.found

end Add

/-! ### Which stored service takes it -/

/-- The stored service has the name and the type of the detected one, and all its ports. -/
def SameAs (a : Add) (s : Service) : Prop :=
  a.traits.name = s.name ∧ a.traits.type = s.type ∧ ∀ source, a.HasPort source → source ∈ s.sources

/-- The stored service has a port of the detected one, by a socket that none of its main
processes holds any more. -/
def Lost (a : Add) (s : Service) : Prop :=
  ∃ i ∈ s.sockets, a.HasPort i.getSource ∧
    ∀ p ∈ s.mainProcess, p.getStatus a.os = true → p.haveSocket i.id = false

/-- The first element with a property is at that place. -/
def FirstAt {α : Type} (P : α → Prop) (l : List α) (k : Nat) : Prop :=
  (∃ x, l[k]? = some x ∧ P x) ∧ ∀ j < k, ∀ x, l[j]? = some x → ¬ P x

/-- The stored service that the detected one goes to. -/
def TakenBy (m : ServicesManager) (a : Add) (k : Nat) : Prop :=
  FirstAt (SameAs a) m.services k ∨
    ((∀ s ∈ m.services, ¬ SameAs a s) ∧ FirstAt (Lost a) m.services k)

/-- The name that the service keeps. An empty one is filled where no main process stays: there
is none, or a single one of that executable that has ended. -/
def keptName (a : Add) (s : Service) : String :=
  if s.name ≠ "" then s.name
  else match s.mainProcess with
    | [] => a.process.baseName
    | [q] =>
        if q.getStatus a.os = false ∧ q.fullPath = a.process.fullPath then a.process.baseName
        else ""
    | _ => ""

/-- The unique key that the service keeps. An empty one is filled where no socket stays: there
is none, or a single one with the first port. -/
def keptKey (a : Add) (s : Service) : String :=
  if s.uniqName ≠ "" then s.uniqName
  else match a.firstPort, s.sockets with
    | none, _ => ""
    | some source, [] => Service.uniqKeyOf source
    | some source, [i] => if i.getSource = source then Service.uniqKeyOf source else ""
    | some _, _ => ""

/-- What is found does not collide:

- `stored`: a service that no stored one takes has a name and a key that no stored one has;
- `merged`: the service that takes it keeps a name and a key that no other one has. -/
structure Clear (m : ServicesManager) (a : Add) : Prop where
  stored : (∀ s ∈ m.services, ¬ SameAs a s ∧ ¬ Lost a s) →
    ∀ s ∈ m.services, s.getID ≠ a.traits.name ++ "-" ++ a.traits.key
  merged : ∀ k s, TakenBy m a k → m.services[k]? = some s → ∀ j t, j ≠ k →
    m.services[j]? = some t → t.getID ≠ keptName a s ++ "-" ++ keptKey a s

/-! ### What `addService` compares -/

/-- The sockets of a new service start with the first one. -/
theorem head?_sockets_newService (env : Env) (os : OsState) (socks : List Socket) (p : Process)
    (it : Socket) : (SocketDetector.newService env os socks p it).sockets.head? = some it := by
  -- Along the scanned sockets the first entry stays.
  have hkeep : ∀ (socks : List Socket) (s : Service), s.sockets.head? = some it →
      (SocketDetector.associate os socks s).sockets.head? = some it := by
    intro socks
    induction socks with
    | nil => exact fun _ h => h
    | cons i socks ih =>
        intro s hs
        unfold SocketDetector.associate
        rw [List.foldl_cons]
        refine ih _ ?_
        split
        · rw [Service.sockets_setSocket]
          split
          · exact hs
          · rw [List.head?_append, hs]
            rfl
        · exact hs
  rw [SocketDetector.newService_eq]
  refine hkeep socks _ ?_
  unfold SocketDetector.firstService
  rw [Service.sockets_addMainProcess, Service.sockets_setSocket, SocketDetector.sockets_new]
  rfl

/-- With a socket there, setting more of them leaves the unique key alone. -/
theorem uniqName_associate (os : OsState) (socks : List Socket) (s : Service)
    (hs : s.sockets ≠ []) : (SocketDetector.associate os socks s).uniqName = s.uniqName := by
  induction socks generalizing s with
  | nil => rfl
  | cons i socks ih =>
      unfold SocketDetector.associate
      rw [List.foldl_cons]
      split
      · have hnext : (s.setSocket i).sockets ≠ [] := by
          rw [Service.sockets_setSocket]
          split
          · exact hs
          · exact List.append_ne_nil_of_right_ne_nil _ (List.cons_ne_nil _ _)
        refine (ih _ hnext).trans ?_
        rw [Service.uniqName_setSocket]
        exact if_neg (fun h => hs h.1)
      · exact ih s hs

/-- A process gives an unnamed service without processes its base name. -/
theorem ofService_addMainProcess (os : OsState) {s : Service} (p : Process)
    (hmain : s.mainProcess = []) (hname : s.name = "") :
    Traits.ofService (s.addMainProcess os p) = { Traits.ofService s with name := p.baseName } := by
  unfold Traits.ofService
  rw [Service.name_addMainProcess, Service.type_addMainProcess, Service.uniqName_addMainProcess]
  unfold Service.named
  rw [if_pos ⟨hmain, hname⟩]

theorem ofService_new (host : String) :
    Traits.ofService (Service.new host) = { name := "", type := "unknown", key := "" } := by
  unfold Service.new Service.setDefaultHost
  split <;> rfl

/-- The first socket gives a new service its key. -/
theorem ofService_setSocket_new (host : String) (it : Socket) :
    Traits.ofService ((Service.new host).setSocket it)
      = { name := "", type := "unknown", key := Service.uniqKeyOf it.getSource } := by
  have hnew := ofService_new host
  have hkey : (Service.new host).uniqName = "" := congrArg Traits.key hnew
  have hfirst := Service.uniqName_setSocket (Service.new host) it
  rw [if_pos ⟨SocketDetector.sockets_new host, hkey⟩] at hfirst
  unfold Traits.ofService at hnew ⊢
  rw [hfirst, Service.setSocket_eq]
  exact congrArg (fun t : Traits => { t with key := Service.uniqKeyOf it.getSource }) hnew

namespace Add

theorem ofService_firstService (env : Env) (os : OsState) (p : Process) (it : Socket) :
    Traits.ofService (SocketDetector.firstService env os p it)
      = { name := p.baseName, type := "unknown", key := Service.uniqKeyOf it.getSource } := by
  have hset := ofService_setSocket_new env.defaultHost it
  have hmain : ((Service.new env.defaultHost).setSocket it).mainProcess = [] := by
    rw [Service.setSocket_eq]
    exact SocketDetector.mainProcess_new env.defaultHost
  unfold SocketDetector.firstService
  rw [ofService_addMainProcess os p hmain (congrArg Traits.name hset), hset]

variable (a : Add)

/-- A detector builds a service with what it has found. -/
theorem ofService_service : Traits.ofService a.service = a.found := by
  cases a with
  | socket env os socks p it =>
      have hhead : (SocketDetector.firstService env os p it).sockets ≠ [] := by
        unfold SocketDetector.firstService
        rw [Service.sockets_addMainProcess, Service.sockets_setSocket, SocketDetector.sockets_new]
        exact List.cons_ne_nil _ _
      have hkey := uniqName_associate os socks _ hhead
      show Traits.ofService (SocketDetector.newService env os socks p it) = _
      rw [SocketDetector.newService_eq, SocketDetector.associate_eq, hkey]
      exact ofService_firstService env os p it
  | unit env os small p =>
      have hnew := ofService_new env.defaultHost
      have hunit : Traits.ofService { Service.new env.defaultHost with uniqName := small }
          = { name := "", type := "unknown", key := small } :=
        congrArg (fun t : Traits => { t with key := small }) hnew
      have hadd := ofService_addMainProcess os
        (s := { Service.new env.defaultHost with uniqName := small }) p
        (SocketDetector.mainProcess_new env.defaultHost) (congrArg Traits.name hunit)
      rw [hunit] at hadd
      exact hadd

/-- The enhanced service has the traits. -/
theorem ofService_enhanced : Traits.ofService a.enhanced = a.traits := by
  unfold enhanced traits
  rw [enhance_eq_calls, ← ofService_service]
  exact (List.foldl_hom Traits.ofService fun s call => (Traits.ofService_run s call).symm).symm

theorem name_enhanced : a.enhanced.name = a.traits.name :=
  congrArg Traits.name a.ofService_enhanced

theorem type_enhanced : a.enhanced.type = a.traits.type :=
  congrArg Traits.type a.ofService_enhanced

theorem uniqName_enhanced : a.enhanced.uniqName = a.traits.key :=
  congrArg Traits.key a.ofService_enhanced

theorem mainProcess_enhanced : a.enhanced.mainProcess = [a.process] := by
  unfold enhanced
  rw [mainProcess_enhance]
  cases a with
  | socket env os socks p it => exact SocketDetector.mainProcess_newService env os socks p it
  | unit env os small p => exact (SystemdDetector.lists_newService env os small p).1

theorem sockets_enhanced : a.enhanced.sockets = a.service.sockets := by
  unfold enhanced
  rw [sockets_enhance]

theorem mem_sources_enhanced {source : String} :
    source ∈ a.enhanced.sources ↔ a.HasPort source := by
  unfold enhanced
  rw [sources_enhance]
  cases a with
  | socket env os socks p it => exact SocketDetector.mem_sources_newService env os socks p it
  | unit env os small p =>
      have hsockets := (SystemdDetector.lists_newService env os small p).2.2
      show source ∈ (SystemdDetector.newService env os small p).sources ↔ False
      unfold Service.sources
      rw [hsockets]
      exact iff_of_false List.not_mem_nil id

end Add

theorem equals_iff (a : Add) (s : Service) : a.enhanced.equals s = true ↔ SameAs a s := by
  unfold Service.equals SameAs
  rw [Bool.and_eq_true, Bool.and_eq_true, beq_iff_eq, beq_iff_eq, a.name_enhanced,
    a.type_enhanced, and_assoc]
  refine and_congr_right fun _ => and_congr_right fun _ => ?_
  simp only [List.all_eq_true, Service.haveSocketSource_iff, ← a.mem_sources_enhanced]
  exact List.forall_mem_map.symm

theorem needSocketFrom_iff (a : Add) (s : Service) :
    s.needSocketFrom a.os a.enhanced = true ↔ Lost a s := by
  have hheld : ∀ id, s.haveSocket a.os id = false ↔
      ∀ p ∈ s.mainProcess, p.getStatus a.os = true → p.haveSocket id = false := by
    intro id
    rw [← Bool.not_eq_true, Service.haveSocket_iff]
    simp only [not_exists, not_and, Bool.not_eq_true]
  unfold Service.needSocketFrom Lost
  simp only [List.any_eq_true, Bool.and_eq_true, Bool.not_eq_true', hheld,
    ← a.mem_sources_enhanced]
  refine exists_congr fun i => and_congr_right fun _ => ?_
  rw [and_comm]
  refine and_congr_left' ?_
  simp only [Service.sources, List.mem_map, beq_iff_eq]

/-- The first match of a test is the first element with the property. -/
theorem findIdx?_eq_some_iff_firstAt {α : Type} {test : α → Bool} {P : α → Prop}
    (h : ∀ x, test x = true ↔ P x) (l : List α) (k : Nat) :
    l.findIdx? test = some k ↔ FirstAt P l k := by
  rw [List.findIdx?_eq_some_iff_getElem]
  unfold FirstAt
  constructor
  · rintro ⟨hk, htest, hbefore⟩
    refine ⟨⟨l[k], List.getElem?_eq_getElem hk, (h _).mp htest⟩, fun j hj x hx hP => ?_⟩
    have hlt : j < l.length := Nat.lt_trans hj hk
    rw [List.getElem?_eq_getElem hlt, Option.some_inj] at hx
    exact hbefore j hj ((h _).mpr (hx ▸ hP))
  · rintro ⟨⟨x, hx, hP⟩, hbefore⟩
    obtain ⟨hk, rfl⟩ := List.getElem?_eq_some_iff.mp hx
    refine ⟨hk, (h _).mpr hP, fun j hj htest => ?_⟩
    have hlt : j < l.length := Nat.lt_trans hj hk
    exact hbefore j hj _ (List.getElem?_eq_getElem hlt) ((h _).mp htest)

/-- The target of `addService` is the service that takes the detected one. -/
theorem mergeTarget_eq_some_iff (m : ServicesManager) (a : Add) (k : Nat) :
    m.mergeTarget a.os a.enhanced = some k ↔ TakenBy m a k := by
  unfold mergeTarget TakenBy
  rw [Option.or_eq_some_iff, findIdx?_eq_some_iff_firstAt (equals_iff a),
    findIdx?_eq_some_iff_firstAt (needSocketFrom_iff a), List.findIdx?_eq_none_iff]
  simp only [Bool.eq_false_iff, ne_eq, equals_iff]

theorem mergeTarget_eq_none_iff (m : ServicesManager) (a : Add) :
    m.mergeTarget a.os a.enhanced = none ↔ ∀ s ∈ m.services, ¬ SameAs a s ∧ ¬ Lost a s := by
  unfold mergeTarget
  rw [Option.or_eq_none_iff, List.findIdx?_eq_none_iff, List.findIdx?_eq_none_iff]
  simp only [Bool.eq_false_iff, ne_eq, equals_iff, needSocketFrom_iff]
  exact forall₂_and.symm

theorem mergedName_eq (a : Add) (s : Service) : mergedName a.os s a.enhanced = keptName a s := by
  unfold mergedName keptName
  rw [a.mainProcess_enhanced]
  dsimp only
  by_cases hname : s.name = ""
  · rw [if_neg (not_not_intro hname)]
    match s.mainProcess with
    | [] => rw [if_pos ⟨rfl, hname⟩]
    | [q] =>
        dsimp only
        by_cases hq : q.getStatus a.os = false ∧ q.fullPath = a.process.fullPath
        · rw [if_pos hq, if_pos ⟨by simp [Service.isOutdated, hq.1, hq.2], hname⟩]
        · have hstay : Service.isOutdated a.os a.process q = false := by
            simpa [Service.isOutdated] using hq
          rw [if_neg hq, if_neg (by simp [hstay]), hname]
    | q :: r :: l => rw [if_neg (by simp), hname]
  · rw [if_neg (fun h => hname h.2), if_pos hname]

theorem mergedKey_eq (a : Add) (s : Service) : mergedKey s a.enhanced = keptKey a s := by
  have hfirst : a.enhanced.sockets.head?.map Socket.getSource = a.firstPort := by
    rw [a.sockets_enhanced]
    cases a with
    | socket env os socks p it =>
        exact congrArg (Option.map Socket.getSource) (head?_sockets_newService env os socks p it)
    | unit env os small p =>
        have hsockets := (SystemdDetector.lists_newService env os small p).2.2
        exact congrArg (fun l => (List.head? l).map Socket.getSource) hsockets
  unfold mergedKey keptKey
  rw [← hfirst]
  cases hsocks : a.enhanced.sockets with
  | nil =>
      by_cases hkey : s.uniqName = ""
      · rw [if_neg (not_not_intro hkey)]
        exact hkey
      · rw [if_pos hkey]
  | cons i l =>
      dsimp only [List.head?_cons, Option.map_some]
      by_cases hkey : s.uniqName = ""
      · rw [if_neg (not_not_intro hkey)]
        match s.sockets with
        | [] => rw [if_pos ⟨rfl, hkey⟩]
        | [j] =>
            by_cases hj : j.getSource = i.getSource
            · rw [if_pos ⟨by simp [hj], hkey⟩]
              simp [hj]
            · rw [if_neg (by simp [hj]), hkey]
              simp [hj]
        | j :: j' :: l' => rw [if_neg (by simp), hkey]
      · rw [if_neg (fun h => hkey h.2), if_pos hkey]

/-! ### Runs -/

/-- What is found collides with nothing exactly where the identifier is fresh. -/
theorem clear_iff_fresh (m : ServicesManager) (a : Add) : Clear m a ↔ Fresh m a := by
  have hid : a.enhanced.getID = a.traits.name ++ "-" ++ a.traits.key := by
    unfold Service.getID
    rw [a.name_enhanced, a.uniqName_enhanced]
  unfold Fresh
  cases htarget : m.mergeTarget a.os a.enhanced with
  | none =>
      have hnone := (mergeTarget_eq_none_iff m a).mp htarget
      dsimp only
      rw [hid]
      constructor
      · intro h hmem
        obtain ⟨s, hs, heq⟩ := List.mem_map.mp hmem
        exact h.stored hnone s hs heq
      · refine fun h => ⟨fun _ s hs heq => h (heq ▸ List.mem_map_of_mem hs), ?_⟩
        intro k s htaken
        rw [← mergeTarget_eq_some_iff, htarget] at htaken
        exact absurd htaken (Option.some_ne_none k).symm
  | some k =>
      have htaken := (mergeTarget_eq_some_iff m a k).mp htarget
      have hkept : ∀ s, mergedID a.os s a.enhanced = keptName a s ++ "-" ++ keptKey a s := by
        intro s
        unfold mergedID
        rw [mergedName_eq, mergedKey_eq]
      dsimp only
      constructor
      · intro h s hs hmem
        obtain ⟨t, ht, heq⟩ := List.mem_map.mp hmem
        obtain ⟨j, hj, hget⟩ := List.mem_eraseIdx_iff_getElem?.mp ht
        exact h.merged k s htaken hs j t hj hget (heq.trans (hkept s))
      · intro h
        refine ⟨fun hnone => ?_, fun k' s htaken' hs j t hj hget heq => ?_⟩
        · rw [(mergeTarget_eq_none_iff m a).mpr hnone] at htarget
          exact absurd htarget (Option.some_ne_none k).symm
        · rw [← mergeTarget_eq_some_iff, htarget, Option.some_inj] at htaken'
          subst htaken'
          refine h s hs (List.mem_map.mpr ⟨t, ?_, heq.trans (hkept s).symm⟩)
          exact List.mem_eraseIdx_iff_getElem?.mpr ⟨j, hj, hget⟩

/-- Three listening sockets. The first two share their address. -/
def sharedPort : List Socket :=
  [{ id := 100, type := "tcp", source := { port := 80 } },
    { id := 200, type := "tcp", source := { port := 80 } },
    { id := 201, type := "tcp", source := { port := 81 } }]

/-- Two running processes. -/
def twoProcesses : OsState :=
  OsState.ofProcs [(10, { exe := some "/bin/foo", fd := some ["socket:[100]"] }),
    (20, { exe := some "/bin/foo", fd := some ["socket:[200]", "socket:[201]"] })]

/-- The call for the process 10, which holds the first socket. -/
def firstProcess : Add :=
  .socket {} twoProcesses sharedPort (SocketDetector.detected twoProcesses 10)
    { id := 100, type := "tcp", source := { port := 80 } }

/-- The call for the process 20, which holds the other two. -/
def secondProcess : Add :=
  .socket {} twoProcesses sharedPort (SocketDetector.detected twoProcesses 20)
    { id := 200, type := "tcp", source := { port := 80 } }

end WatchedAgent.Proofs
