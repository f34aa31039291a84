import WatchedAgent.Proofs.ManagerOps

/-!
# `WatchedAgent.Proofs.Units`: the services of the systemd units

A pass of `systemdDetector::find` over units that all run, from the empty manager, with
enhancers that set the two types by the name of the service. Each unit becomes a service
named after the executable of its main process, without sockets, and `addService` merges
it into a stored service that equals it.

`operator==` compares the name, the type and the sockets, and so it does not see the unit.
`Grouped` is the invariant of the loop: one service for each executable name, with the main
PIDs of the units of that name, and with the unique key and the handler of one of them.
`separated_iff` is the result: the units get services of their own, if and only if their
executable names are distinct. `not_separated_same_executable` is a pair of units that run
the same interpreter.
-/

set_option autoImplicit false

namespace WatchedAgent.Proofs

open WatchedAgent.Lib
open WatchedAgent.Model
open WatchedAgent.Model.ServicesManager
open WatchedAgent.Model.SystemdDetector

/-! ### Enhancers that set the types -/

/-- A call that sets one of the two types. -/
def SetsType : SetterCall → Prop
  | .setType _ => True
  | .setSubType _ => True
  | _ => False

/-- The enhancer sets the two types only, by the name of the service. The systemd enhancer
sets nothing on a service that has a handler. -/
def TypesByName : Enhancer → Prop
  | .lua script => ∃ calls : String → List SetterCall,
      (∀ s, script s = calls s.name) ∧ ∀ name, ∀ call ∈ calls name, SetsType call
  | .systemd => True

/-- The type after the calls. -/
def typeAfter (calls : List SetterCall) (type : String) : String :=
  calls.foldl (fun type call => match call with
    | .setType type => type
    | _ => type) type

/-- Calls that set the types leave the rest alone. -/
theorem foldl_run_of_setsType (calls : List SetterCall) (h : ∀ call ∈ calls, SetsType call)
    (s : Service) : ∃ subType, calls.foldl (fun s call => call.run s) s
      = { s with type := typeAfter calls s.type, subType } := by
  induction calls generalizing s with
  | nil => exact ⟨s.subType, rfl⟩
  | cons call calls ih =>
      have hrest : ∀ call ∈ calls, SetsType call :=
        fun c hc => h c (List.mem_cons_of_mem call hc)
      obtain ⟨subType, heq⟩ := ih hrest (call.run s)
      have hcall := h call List.mem_cons_self
      rw [List.foldl_cons, heq]
      cases call with
      | setType type => exact ⟨subType, rfl⟩
      | setSubType type => exact ⟨subType, rfl⟩
      | setUniqKey key => exact absurd hcall id
      | setName name => exact absurd hcall id
      | setHost host => exact absurd hcall id
      | setHandlerObj handler => exact absurd hcall id
      | setCollectorCfg name value => exact absurd hcall id

/-- On a service with a handler, such enhancers leave everything but the types alone, and
give it a type that depends on its name and its type. -/
theorem enhance_of_typesByName (env : Env) (h : ∀ e ∈ env.enhancers, TypesByName e) :
    ∃ type : String → String → String, ∀ (os : OsState) (s : Service), s.haveHandler = true →
      ∃ subType, enhance env os s = { s with type := type s.name s.type, subType } := by
  generalize hes : env.enhancers = es at h
  induction es generalizing env with
  | nil =>
      refine ⟨fun _ type => type, fun os s _ => ⟨s.subType, ?_⟩⟩
      unfold enhance
      rw [hes]
      rfl
  | cons e es ih =>
      obtain ⟨type, htype⟩ := ih { env with enhancers := es } rfl
        (fun e' he' => h e' (List.mem_cons_of_mem e he'))
      have he := h e List.mem_cons_self
      cases e with
      | systemd =>
          refine ⟨type, fun os s hs => ?_⟩
          -- A handler is set already.
          have hsame : systemdEnhance os s = s := by
            unfold systemdEnhance
            split
            · rfl
            · split
              · rfl
              · exact if_neg (fun h => by rw [hs] at h; exact absurd h.1 (by simp))
          rw [enhance_cons .systemd es env os s hes]
          show ∃ subType, enhance _ os (systemdEnhance os s) = _
          rw [hsame]
          exact htype os s hs
      | lua script =>
          obtain ⟨calls, hscript, hcalls⟩ := he
          -- The type the script leaves is the one the later enhancers see.
          refine ⟨fun name t => type name (typeAfter (calls name) t), fun os s hs => ?_⟩
          obtain ⟨subType, hrun⟩ := foldl_run_of_setsType (calls s.name) (hcalls s.name) s
          rw [enhance_cons (.lua script) es env os s hes]
          show ∃ subType, enhance _ os ((script s).foldl (fun s call => call.run s) s) = _
          rw [hscript, hrun]
          exact htype os _ hs

/-! ### The units of a pass -/

/-- The units the bus lists, in order. -/
def units (os : OsState) : List String := os.bus.introspect.filterMap unitOfLine

/-- The main PID of a unit. -/
def mainPID (os : OsState) (small : String) : Nat := os.bus.execMainPID (objectPath small)

/-- The base name of the executable of a unit's main process. -/
def executable (os : OsState) (small : String) : String :=
  (Process.ofPid os (mainPID os small)).baseName

/-- A moment at which the bus lists running units that the detector takes. -/
structure RunningUnits (env : Env) (os : OsState) : Prop where
  haveBus : os.bus.haveBus = true
  lines : "" ∉ os.bus.introspect
  accepted : ∀ u ∈ units os, accepts env os u = some true
  names : (units os).Nodup
  mainPIDs : ((units os).map (mainPID os)).Nodup
  alive : ∀ u ∈ units os, os.alive (mainPID os u) = true
  executables : ∀ u ∈ units os, executable os u ≠ ""

/-- Each unit has its main PID in a service with its name as unique key and with its
handler, and two units have theirs in different services. -/
structure Separated (os : OsState) (m : ServicesManager) : Prop where
  recorded : ∀ u ∈ units os, ∃ s ∈ m.services, mainPID os u ∈ s.pids ∧ s.uniqName = u ∧
    s.handler = some (.systemd (objectPath u))
  apart : ∀ u ∈ units os, ∀ v ∈ units os, u ≠ v → ∀ s ∈ m.services,
    mainPID os u ∈ s.pids → mainPID os v ∉ s.pids

/-- The loop over units that are all taken. -/
theorem walk_eq_foldl (env : Env) (os : OsState) (lines : List String) (hlines : "" ∉ lines)
    (haccept : ∀ u ∈ lines.filterMap unitOfLine, accepts env os u = some true)
    (m : ServicesManager) :
    walk env os m lines = (lines.filterMap unitOfLine).foldl (addUnit env os) m := by
  induction lines generalizing m with
  | nil => rfl
  | cons line lines ih =>
      rw [List.mem_cons, not_or] at hlines
      unfold walk
      rw [if_neg (Ne.symm hlines.1)]
      cases hunit : unitOfLine line with
      | none =>
          rw [List.filterMap_cons_none hunit] at haccept ⊢
          exact ih hlines.2 haccept m
      | some small =>
          rw [List.filterMap_cons_some hunit] at haccept ⊢
          dsimp only
          rw [haccept small List.mem_cons_self]
          exact ih hlines.2 (fun u hu => haccept u (List.mem_cons_of_mem small hu)) _

/-! ### The invariant of the loop -/

/-- After the units `done`: one service for each executable name, without sockets and with
the type of its name. It lists the main PIDs of the units of that name, and has the unique
key and the handler of one of them. -/
structure Grouped (os : OsState) (type : String → String) (done : List String)
    (m : ServicesManager) : Prop where
  names : (m.services.map Service.name).Nodup
  plain : ∀ s ∈ m.services, s.sockets = [] ∧ s.type = type s.name
  listed : ∀ u ∈ done, ∃ s ∈ m.services, s.name = executable os u ∧ mainPID os u ∈ s.pids
  only : ∀ s ∈ m.services, ∀ n ∈ s.pids, ∃ u ∈ done, mainPID os u = n ∧ executable os u = s.name
  keyed : ∀ s ∈ m.services, ∃ u ∈ done, executable os u = s.name ∧ s.uniqName = u ∧
    s.handler = some (.systemd (objectPath u))

section Step
variable {env : Env} {os : OsState} {type : String → String → String}

/-- The service that `addService` gets for a unit, after the enhancers. -/
def unitService (env : Env) (os : OsState) (u : String) : Service :=
  enhance env os (newService env os u (Process.ofPid os (mainPID os u)))

variable (env os) in
/-- The parts of the service of a unit that the enhancers leave alone. -/
theorem unitService_lists (u : String) :
    (unitService env os u).sockets = [] ∧
      (unitService env os u).mainProcess.map Process.pid = [mainPID os u] ∧
      (unitService env os u).pids = [mainPID os u] := by
  obtain ⟨hmain, -, hsockets⟩ := lists_newService env os u (Process.ofPid os (mainPID os u))
  unfold unitService
  rw [sockets_enhance, mainProcess_enhance, pids_enhance, pids_newService, hmain, hsockets,
    List.map_singleton, Process.pid_ofPid]
  exact ⟨rfl, rfl, rfl⟩

/-- The enhancers set the types only, by the name. -/
def EnhancesTypes (env : Env) (type : String → String → String) : Prop :=
  ∀ (os : OsState) (s : Service), s.haveHandler = true →
    ∃ subType, enhance env os s = { s with type := type s.name s.type, subType }

variable (os) in
/-- The service of a unit has the name of the executable, the type of that name, and the
key and the handler of the unit. -/
theorem unitService_fields (henhance : EnhancesTypes env type) (u : String) :
    (unitService env os u).name = executable os u ∧
      (unitService env os u).type = type (executable os u) "unknown" ∧
      (unitService env os u).uniqName = u ∧
      (unitService env os u).handler = some (.systemd (objectPath u)) := by
  obtain ⟨subType, hadd⟩ := henhance os
    (newService env os u (Process.ofPid os (mainPID os u))) rfl
  have hnew : (Service.new env.defaultHost).mainProcess = [] ∧
      (Service.new env.defaultHost).name = "" ∧ (Service.new env.defaultHost).type = "unknown" := by
    unfold Service.new Service.setDefaultHost
    split <;> exact ⟨rfl, rfl, rfl⟩
  have hname : (newService env os u (Process.ofPid os (mainPID os u))).name = executable os u := by
    show (Service.addMainProcess os _ _).name = _
    rw [Service.name_addMainProcess]
    unfold Service.named
    rw [if_pos ⟨hnew.1, hnew.2.1⟩]
    rfl
  have htype : (newService env os u (Process.ofPid os (mainPID os u))).type = "unknown" := by
    show (Service.addMainProcess os _ _).type = _
    rw [Service.type_addMainProcess]
    exact hnew.2.2
  have huniq : (newService env os u (Process.ofPid os (mainPID os u))).uniqName = u := by
    show (Service.addMainProcess os _ _).uniqName = _
    rw [Service.uniqName_addMainProcess]
  unfold unitService
  rw [hadd]
  exact ⟨hname, by rw [← hname, ← htype], huniq, rfl⟩

/-- A stored service without sockets equals the service of a unit exactly when it has its
name. -/
theorem equals_unitService_iff (henhance : EnhancesTypes env type) (u : String) {s : Service}
    (hs : s.type = type s.name "unknown") :
    (unitService env os u).equals s = true ↔ s.name = executable os u := by
  obtain ⟨hname, htype, -, -⟩ := unitService_fields os henhance u
  have hsockets := (unitService_lists env os u).1
  unfold Service.equals
  rw [hname, htype, hs, hsockets]
  simp only [List.all_nil, Bool.and_true, Bool.and_eq_true, beq_iff_eq]
  constructor
  · intro h
    exact h.1.symm
  · intro h
    rw [h]
    exact ⟨rfl, rfl⟩

variable {done : List String} {m : ServicesManager}

/-- Units that were handled stay handled. -/
theorem Grouped.keyed_append {t : Service} (u : String)
    (h : ∃ v ∈ done, executable os v = t.name ∧ t.uniqName = v ∧
      t.handler = some (.systemd (objectPath v))) :
    ∃ v ∈ done ++ [u], executable os v = t.name ∧ t.uniqName = v ∧
      t.handler = some (.systemd (objectPath v)) := by
  obtain ⟨v, hv, hkey⟩ := h
  exact ⟨v, List.mem_append_left [u] hv, hkey⟩

theorem Grouped.only_append {t : Service} {n : Nat} (u : String)
    (h : ∃ v ∈ done, mainPID os v = n ∧ executable os v = t.name) :
    ∃ v ∈ done ++ [u], mainPID os v = n ∧ executable os v = t.name := by
  obtain ⟨v, hv, hpid⟩ := h
  exact ⟨v, List.mem_append_left [u] hv, hpid⟩

/-- The service of the executable takes the process of a unit, and keeps its name, type and
key. -/
theorem grouped_of_merge (henhance : EnhancesTypes env type) {u : String} {m' : ServicesManager}
    (halive : ∀ v ∈ done ++ [u], os.alive (mainPID os v) = true)
    (hexec : ∀ v ∈ done ++ [u], executable os v ≠ "")
    (h : Grouped os (fun name => type name "unknown") done m)
    (hany : m.services.any (fun s => (unitService env os u).equals s) = true)
    (hserv : m'.services = modifyFirst (fun s => (unitService env os u).equals s)
      (fun s => s.updateFrom os (unitService env os u)) m.services) :
    Grouped os (fun name => type name "unknown") (done ++ [u]) m' := by
  obtain ⟨hsockets, hmain, -⟩ := unitService_lists env os u
  have hu : u ∈ done ++ [u] := List.mem_append_right done (List.mem_singleton_self u)
  have hequals : ∀ s ∈ m.services,
      ((unitService env os u).equals s = true ↔ s.name = executable os u) :=
    fun s hs => equals_unitService_iff henhance u (h.plain s hs).2
  -- No stored name is empty, so a merge keeps it.
  have hkept : ∀ s ∈ m.services, (unitService env os u).equals s = true →
      (s.updateFrom os (unitService env os u)).name = s.name := by
    intro s hs _
    obtain ⟨v, hv, hvname, -⟩ := h.keyed s hs
    refine Service.name_updateFrom_of_ne os s _ ?_
    rw [← hvname]
    exact hexec v (List.mem_append_left [u] hv)
  constructor
  case names =>
    rw [hserv, map_modifyFirst_of_eq _ _ Service.name m.services hkept]
    exact h.names
  case plain =>
    intro s hs
    rw [hserv] at hs
    rcases mem_modifyFirst _ _ hs with hs | ⟨t, ht, heq, rfl⟩
    · exact h.plain s hs
    · rw [(Service.updateFrom_of_no_socket os t _ hsockets).1, Service.type_updateFrom,
        hkept t ht heq]
      exact h.plain t ht
  case listed =>
    intro v hv
    rw [hserv]
    rcases List.mem_append.mp hv with hv | hv
    · refine exists_mem_modifyFirst _ _ (fun s hs heq hlisted => ?_) (h.listed v hv)
      refine ⟨(hkept s hs heq).trans hlisted.1, ?_⟩
      exact Service.mem_pids_updateFrom_of_alive os s _
        (halive v (List.mem_append_left [u] hv)) (.inl hlisted.2)
    · rw [List.mem_singleton] at hv
      subst hv
      obtain ⟨s, hs, heq, hmem⟩ := exists_mem_modifyFirst_of_any
        (fun s => (unitService env os v).equals s)
        (fun s => s.updateFrom os (unitService env os v)) hany
      refine ⟨_, hmem, (hkept s hs heq).trans ((hequals s hs).mp heq), ?_⟩
      refine Service.mem_pids_updateFrom_of_alive os s _ (halive v hu) (.inr ?_)
      rw [hmain]
      exact List.mem_singleton_self _
  case only =>
    intro s hs n hn
    rw [hserv] at hs
    rcases mem_modifyFirst _ _ hs with hs | ⟨t, ht, heq, rfl⟩
    · exact Grouped.only_append u (h.only s hs n hn)
    · rw [hkept t ht heq]
      rcases Service.mem_pids_updateFrom os t _ hn with hn | hn
      · exact Grouped.only_append u (h.only t ht n hn)
      · rw [hmain, List.mem_singleton] at hn
        exact ⟨u, hu, hn.symm, ((hequals t ht).mp heq).symm⟩
  case keyed =>
    intro s hs
    rw [hserv] at hs
    rcases mem_modifyFirst _ _ hs with hs | ⟨t, ht, heq, rfl⟩
    · exact Grouped.keyed_append u (h.keyed s hs)
    · rw [hkept t ht heq, (Service.updateFrom_of_no_socket os t _ hsockets).2,
        Service.handler_updateFrom]
      exact Grouped.keyed_append u (h.keyed t ht)

/-- A unit becomes the first of a new service. -/
theorem grouped_of_store (henhance : EnhancesTypes env type) {u : String} {m' : ServicesManager}
    (h : Grouped os (fun name => type name "unknown") done m)
    (hnone : m.services.any (fun s => (unitService env os u).equals s) = false)
    (hserv : m'.services = m.services ++ [unitService env os u]) :
    Grouped os (fun name => type name "unknown") (done ++ [u]) m' := by
  obtain ⟨hname, htype, huniq, hhandler⟩ := unitService_fields os henhance u
  obtain ⟨hsockets, -, hpids⟩ := unitService_lists env os u
  have hu : u ∈ done ++ [u] := List.mem_append_right done (List.mem_singleton_self u)
  have hmem : ∀ s ∈ m'.services, s ∈ m.services ∨ s = unitService env os u := by
    intro s hs
    rw [hserv, List.mem_append, List.mem_singleton] at hs
    exact hs
  constructor
  case names =>
    rw [hserv, List.map_append, List.map_singleton]
    refine h.names.append (List.nodup_singleton _) ?_
    rw [List.disjoint_singleton, hname]
    intro hstored
    obtain ⟨s, hs, hsname⟩ := List.mem_map.mp hstored
    exact List.any_eq_false.mp hnone s hs
      ((equals_unitService_iff henhance u (h.plain s hs).2).mpr hsname)
  case plain =>
    intro s hs
    rcases hmem s hs with hs | hs
    · exact h.plain s hs
    · rw [hs, hname, htype]
      exact ⟨hsockets, rfl⟩
  case listed =>
    intro v hv
    rw [hserv]
    rcases List.mem_append.mp hv with hv | hv
    · obtain ⟨s, hs, hlisted⟩ := h.listed v hv
      exact ⟨s, List.mem_append_left _ hs, hlisted⟩
    · rw [List.mem_singleton] at hv
      subst hv
      refine ⟨_, List.mem_append_right _ (List.mem_singleton_self _), hname, ?_⟩
      rw [hpids]
      exact List.mem_singleton_self _
  case only =>
    intro s hs n hn
    rcases hmem s hs with hs | hs
    · exact Grouped.only_append u (h.only s hs n hn)
    · rw [hs, hpids, List.mem_singleton] at hn
      rw [hs]
      exact ⟨u, hu, hn.symm, hname.symm⟩
  case keyed =>
    intro s hs
    rcases hmem s hs with hs | hs
    · exact Grouped.keyed_append u (h.keyed s hs)
    · rw [hs]
      exact ⟨u, hu, hname.symm, huniq, hhandler⟩

/-- The turn of a unit keeps the invariant: its PID joins the service of its executable, or
it becomes the first unit of a new one. -/
theorem grouped_addUnit (henhance : EnhancesTypes env type) {u : String}
    (hfresh : ∀ v ∈ done, mainPID os v ≠ mainPID os u)
    (halive : ∀ v ∈ done ++ [u], os.alive (mainPID os v) = true)
    (hexec : ∀ v ∈ done ++ [u], executable os v ≠ "")
    (h : Grouped os (fun name => type name "unknown") done m) :
    Grouped os (fun name => type name "unknown") (done ++ [u]) (addUnit env os m u) := by
  have hu : u ∈ done ++ [u] := List.mem_append_right done (List.mem_singleton_self u)
  -- A listed PID is the main PID of a unit before, and those differ from this one.
  have hunknown : m.havePID (mainPID os u) = false := by
    rw [← Bool.not_eq_true, havePID_iff]
    intro hknown
    obtain ⟨s, hs, hn⟩ := hknown
    obtain ⟨v, hv, hpid, -⟩ := h.only s hs _ hn
    exact hfresh v hv hpid
  -- So the unit goes to `addService`.
  have hadd : addUnit env os m u
      = m.addService env os (newService env os u (Process.ofPid os (mainPID os u))) := by
    rcases addUnit_cases env os m u with ⟨hknown, -⟩ | ⟨-, hno, -⟩ | ⟨-, -, hadd⟩
    · rw [show os.bus.execMainPID (objectPath u) = mainPID os u from rfl, hunknown] at hknown
      exact absurd hknown (by simp)
    · exact absurd hno (hexec u hu)
    · exact hadd
  rw [hadd]
  rcases addService_cases env os m (newService env os u (Process.ofPid os (mainPID os u))) with
    ⟨hany, hserv⟩ | ⟨-, hneed, -⟩ | ⟨hnone, -, hserv⟩
  · exact grouped_of_merge henhance halive hexec h hany hserv
  · -- No stored service misses a socket, because none has one.
    obtain ⟨s, hs, hmiss⟩ := List.any_eq_true.mp hneed
    unfold Service.needSocketFrom at hmiss
    rw [(h.plain s hs).1] at hmiss
    exact absurd hmiss (by simp)
  · exact grouped_of_store henhance h hnone hserv

/-- The loop keeps the invariant. -/
theorem grouped_foldl (henhance : EnhancesTypes env type) (todo done : List String)
    (m : ServicesManager) (hpids : ((done ++ todo).map (mainPID os)).Nodup)
    (halive : ∀ v ∈ done ++ todo, os.alive (mainPID os v) = true)
    (hexec : ∀ v ∈ done ++ todo, executable os v ≠ "")
    (h : Grouped os (fun name => type name "unknown") done m) :
    Grouped os (fun name => type name "unknown") (done ++ todo)
      (todo.foldl (addUnit env os) m) := by
  induction todo generalizing done m with
  | nil =>
      rw [List.append_nil]
      exact h
  | cons u todo ih =>
      -- The unit moves from the ones to come to the ones handled.
      have hsplit : done ++ u :: todo = (done ++ [u]) ++ todo := by
        rw [List.append_assoc, List.singleton_append]
      rw [hsplit] at hpids halive hexec ⊢
      rw [List.foldl_cons]
      refine ih (done ++ [u]) _ hpids halive hexec ?_
      refine grouped_addUnit henhance ?_ (fun v hv => halive v (List.mem_append_left todo hv))
        (fun v hv => hexec v (List.mem_append_left todo hv)) h
      intro v hv hsame
      rw [List.map_append, List.map_append, List.map_singleton] at hpids
      have hdone := (List.nodup_append.mp (List.nodup_append.mp hpids).1).2.2
      exact hdone _ (List.mem_map_of_mem hv) _ (List.mem_singleton_self _) hsame

end Step

/-! ### A pass -/

section Pass
variable {env : Env} {os : OsState}

/-- The state after a pass. -/
theorem grouped_find (henv : ∀ e ∈ env.enhancers, TypesByName e) (h : RunningUnits env os) :
    ∃ type, Grouped os type (units os) (find env os {}) := by
  obtain ⟨type, henhance⟩ := enhance_of_typesByName env henv
  refine ⟨fun name => type name "unknown", ?_⟩
  have hwalk : find env os {} = (units os).foldl (addUnit env os) {} := by
    unfold find
    rw [h.haveBus, if_neg (by simp)]
    exact walk_eq_foldl env os _ h.lines h.accepted {}
  have hempty : Grouped os (fun name => type name "unknown") [] {} := by
    refine { names := List.nodup_nil, plain := ?_, listed := ?_, only := ?_, keyed := ?_ }
    · exact fun s hs => absurd hs List.not_mem_nil
    · exact fun u hu => absurd hu List.not_mem_nil
    · exact fun s hs => absurd hs List.not_mem_nil
    · exact fun s hs => absurd hs List.not_mem_nil
  rw [hwalk]
  exact grouped_foldl henhance (units os) [] {} h.mainPIDs h.alive h.executables hempty

/-- After a pass over running units from the empty manager, the units have services of
their own, if and only if the base names of their executables are distinct. -/
theorem separated_iff (henv : ∀ e ∈ env.enhancers, TypesByName e) (h : RunningUnits env os) :
    Separated os (find env os {}) ↔ ((units os).map (executable os)).Nodup := by
  obtain ⟨type, hgroup⟩ := grouped_find henv h
  have hpid : ∀ u ∈ units os, ∀ v ∈ units os, mainPID os u = mainPID os v → u = v :=
    fun u hu v hv => List.inj_on_of_nodup_map h.mainPIDs hu hv
  constructor
  · -- Two units of one executable are in the one service of that name.
    intro hsep
    refine List.Nodup.map_on (fun u hu v hv hsame => ?_) h.names
    by_contra hne
    obtain ⟨s, hs, hsname, hsu⟩ := hgroup.listed u hu
    obtain ⟨t, ht, htname, htv⟩ := hgroup.listed v hv
    have hst : s = t := List.inj_on_of_nodup_map hgroup.names hs ht
      (hsname.trans (hsame.trans htname.symm))
    exact hsep.apart u hu v hv hne s hs hsu (hst ▸ htv)
  · intro hexec
    have hname : ∀ u ∈ units os, ∀ v ∈ units os, executable os u = executable os v → u = v :=
      fun u hu v hv => List.inj_on_of_nodup_map hexec hu hv
    -- With distinct names the key of a service and its PIDs are those of one unit.
    refine ⟨fun u hu => ?_, fun u hu v hv hne s hs hsu hsv => ?_⟩
    · obtain ⟨s, hs, hsname, hsu⟩ := hgroup.listed u hu
      obtain ⟨v, hv, hvname, huniq, hhandler⟩ := hgroup.keyed s hs
      obtain rfl : v = u := hname v hv u hu (hvname.trans hsname)
      exact ⟨s, hs, hsu, huniq, hhandler⟩
    · obtain ⟨u', hu', hpu, hnu⟩ := hgroup.only s hs _ hsu
      obtain ⟨v', hv', hpv, hnv⟩ := hgroup.only s hs _ hsv
      rw [hpid u' hu' u hu hpu] at hnu
      rw [hpid v' hv' v hv hpv] at hnv
      exact hne (hname u hu v hv (hnu.trans hnv.symm))

end Pass

/-! ### Two units -/

/-- Two running units with the main PIDs 10 and 20, and their executables. -/
def twoUnits (first second : String) : OsState :=
  { OsState.ofProcs [(10, { exe := some first }), (20, { exe := some second })] with
    bus := {
      haveBus := true
      introspect := [" <node name=\"a_2eservice\"/>", " <node name=\"b_2eservice\"/>"]
      execMainPID := fun path => if path = objectPath "a_2eservice" then 10 else 20
      subState := fun _ => some "running"
      type := fun _ => some "simple"
      restart := fun _ => some "no" } }

/-- An agent that takes every simple unit, and sets the type of the services of `sshd`. -/
def typedUnits : Env where
  enhancers := [.lua (fun s => if s.name = "sshd" then [.setType "system"] else []), .systemd]
  systemdWhiteList := [{ type := some "simple" }]

/-- The enhancers of that agent set the types only. -/
theorem typesByName_typedUnits : ∀ e ∈ typedUnits.enhancers, TypesByName e := by
  intro e he
  rcases List.mem_cons.mp he with rfl | he
  · refine ⟨fun name => if name = "sshd" then [.setType "system"] else [], fun _ => rfl, ?_⟩
    intro name call hcall
    dsimp only at hcall
    split at hcall
    · rw [List.mem_singleton] at hcall
      rw [hcall]
      exact trivial
    · exact absurd hcall List.not_mem_nil
  · rw [List.mem_singleton] at he
    rw [he]
    exact trivial

/-- Two units with different executables get services of their own. -/
theorem separated_sshd_cron :
    Separated (twoUnits "/usr/sbin/sshd" "/usr/sbin/cron")
      (find typedUnits (twoUnits "/usr/sbin/sshd" "/usr/sbin/cron") {}) := by
  refine (separated_iff typesByName_typedUnits ?_).mpr (by decide)
  exact { haveBus := rfl, lines := by decide, accepted := by decide, names := by decide,
          mainPIDs := by decide, alive := by decide, executables := by decide }

/-- Two units that run one interpreter share a service. -/
theorem not_separated_same_executable :
    ¬ Separated (twoUnits "/usr/bin/python3" "/usr/bin/python3")
      (find typedUnits (twoUnits "/usr/bin/python3" "/usr/bin/python3") {}) := by
  intro h
  have hapart : ∀ s ∈ (find typedUnits
      (twoUnits "/usr/bin/python3" "/usr/bin/python3") {}).services, 10 ∈ s.pids → 20 ∉ s.pids :=
    h.apart "a_2eservice" (by decide) "b_2eservice" (by decide) (by decide)
  exact absurd hapart (by decide)

end WatchedAgent.Proofs
