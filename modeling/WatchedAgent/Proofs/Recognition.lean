import WatchedAgent.Proofs.ManagerOps
import WatchedAgent.Proofs.SavedConfig

/-!
# `WatchedAgent.Proofs.Recognition`: a configured service that is detected again

The manager starts with one service, which its configuration file gives, and `addService`
gets a service that is the saved one again. It is merged when it equals the loaded service,
or when the loaded service misses one of its sockets.

Neither is sure. The file holds neither the type nor the name, so `operator==` fails where
an enhancer or a unit set one of them. No process of the loaded service runs, so all its
sockets are missed, but it may have none.

* `recognised_iff`: the merge happens if and only if the service has a socket, or has the
  type and the name the constructor gives.
* `not_recognised_typed`: a unit without sockets whose type an enhancer set.
-/

set_option autoImplicit false

namespace WatchedAgent.Proofs

open WatchedAgent.Lib
open WatchedAgent.Model
open WatchedAgent.Model.ServicesManager
open WatchedAgent.Proofs.SavedConfig

namespace Recognition

/-- The services the manager stores: detected and enhanced, and then changed by its passes
and by the handlers. -/
inductive Stored : Service → Prop where
  | added (env : Env) (os : OsState) {s : Service} (h : Detected s) : Stored (enhance env os s)
  | updateKnown (os : OsState) {socks : List Socket} (hsocks : ∀ sock ∈ socks, Built sock)
      (pid : Nat) {s : Service} (h : Stored s) :
      Stored (SocketDetector.updateKnown os socks pid s)
  | updateFrom (env : Env) (os : OsState) {s d : Service} (h : Stored s) (hd : Detected d) :
      Stored (s.updateFrom os (enhance env os d))
  | addSubProcess (p : Process) {s : Service} (h : Stored s) : Stored (s.addSubProcess p)
  | updateMainProcess (os : OsState) (p : Process) {s : Service} (h : Stored s) :
      Stored (s.updateMainProcess os p)
  | setHandlerObj (handler : Handler) {s : Service} (h : Stored s) :
      Stored ((SetterCall.setHandlerObj handler).run s)
  | getStatus (os : OsState) {s : Service} (h : Stored s) : Stored (cached os s)

theorem Stored.savable {s : Service} (h : Stored s) : Savable s := by
  induction h with
  | added env os h => exact h.savable.of_sockets_eq (sockets_enhance env os _)
  | updateKnown os hsocks pid _ ih =>
      refine (ih.of_sockets_eq ?_).associate os hsocks
      unfold Service.setSocketsOf
      dsimp only
      split <;> rfl
  | updateFrom env os _ hd ih =>
      refine ih.updateFrom os fun sock hs => hd.savable.built sock ?_
      rwa [sockets_enhance] at hs
  | addSubProcess p _ ih => exact ih.of_sockets_eq (Service.sockets_addSubProcess _ p)
  | updateMainProcess os p _ ih =>
      exact ih.of_sockets_eq (Service.sockets_updateMainProcess os _ p)
  | setHandlerObj handler _ ih => exact ih.of_sockets_eq rfl
  | getStatus os _ ih => exact ih.of_sockets_eq rfl

/-- The service `d` is the service `s` again. The PIDs and the inodes may differ. -/
structure SameService (d s : Service) : Prop where
  name : d.name = s.name
  uniqName : d.uniqName = s.uniqName
  type : d.type = s.type
  sources : d.sources = s.sources
  paths : paths d = paths s

/-- The manager that starts with the loaded service merges the detected one into it. -/
def Recognised (start os : OsState) (host : String) (ids : String → Nat)
    (templates : List (String × Service.Config)) (env : Env) (s d : Service) : Prop :=
  ∃ loaded, Service.ofConfig start host ids s.setDefaultConfig = some loaded ∧
    (addService env os { services := [loaded], templates } d).services
      = [loaded.updateFrom os (enhance env os d)]

section Loaded
variable {s loaded d : Service} (hload : LoadedFrom s loaded)
include hload

/-- `operator==` compares the name and the type with those of the constructor. -/
theorem equals_loaded_iff (hd : SameService d s) :
    d.equals loaded = true ↔ s.type = "unknown" ∧ s.name = firstName (paths s) := by
  have hall : d.sockets.all (fun i => loaded.haveSocketSource i.getSource) = true := by
    rw [List.all_eq_true]
    intro i hi
    rw [Service.haveSocketSource_iff, hload.sources, ← hd.sources]
    exact List.mem_map_of_mem hi
  unfold Service.equals
  rw [hall, Bool.and_true, Bool.and_eq_true, beq_iff_eq, beq_iff_eq, hd.name, hd.type,
    hload.name, hload.type]
  exact And.comm

/-- No process of the loaded service runs, so none of its sockets counts as working. -/
theorem haveSocket_loaded (os : Snapshot) (id : Nat) :
    loaded.haveSocket os.toOsState id = false := by
  rw [Bool.eq_false_iff]
  intro hhave
  obtain ⟨p, hp, halive, -⟩ := Service.haveSocket_iff.mp hhave
  rw [hload.mainProcess] at hp
  obtain ⟨path, -, rfl⟩ := List.mem_map.mp hp
  exact os.ne_zero_of_alive halive rfl

/-- The loaded service misses every socket it has. -/
theorem needSocketFrom_loaded_iff (os : Snapshot) (hd : SameService d s) :
    loaded.needSocketFrom os.toOsState d = true ↔ s.sockets ≠ [] := by
  have hsources : d.sources = loaded.sources := hd.sources.trans hload.sources.symm
  have hempty : loaded.sockets = [] ↔ s.sockets = [] := by
    have hmap := hload.sources
    unfold Service.sources at hmap
    rw [← List.map_eq_nil_iff (f := Socket.getSource), hmap, List.map_eq_nil_iff]
  rw [ne_eq, ← hempty]
  unfold Service.needSocketFrom
  simp only [haveSocket_loaded hload os, Bool.not_false, Bool.true_and, List.any_eq_true,
    beq_iff_eq]
  constructor
  · rintro ⟨i, hi, -⟩ hnil
    rw [hnil] at hi
    exact absurd hi List.not_mem_nil
  · intro hne
    obtain ⟨i, hi⟩ := List.exists_mem_of_ne_nil _ hne
    have hsource : i.getSource ∈ d.sources := by
      rw [hsources]
      exact List.mem_map_of_mem hi
    obtain ⟨j, hj, heq⟩ := List.mem_map.mp hsource
    exact ⟨i, hi, j, hj, heq⟩

end Loaded

/-- With one stored service, `addService` merges into it or stores a second one. -/
theorem services_addService_singleton (env : Env) (os : OsState) (loaded d : Service)
    (templates : List (String × Service.Config)) :
    (addService env os { services := [loaded], templates } d).services
        = [loaded.updateFrom os (enhance env os d)]
      ↔ loaded.needSocketFrom os (enhance env os d) = true
        ∨ (enhance env os d).equals loaded = true := by
  have hcases := addService_cases env os { services := [loaded], templates } d
  simp only [List.any_cons, List.any_nil, Bool.or_false] at hcases
  obtain ⟨hequal, h⟩ | ⟨-, hneed, h⟩ | ⟨hequal, hneed, h⟩ := hcases
  · rw [h, modifyFirst, if_pos hequal]
    exact iff_of_true rfl (.inr hequal)
  · rw [h, modifyFirst, if_pos hneed]
    exact iff_of_true rfl (.inl hneed)
  · rw [h, hequal, hneed]
    refine iff_of_false (fun heq => ?_) (by simp)
    exact absurd (congrArg List.length heq) (by simp)

/-- The configured service is recognised exactly when it has a socket, or when it has the
type and the name that loading its file gives. -/
theorem recognised_iff {s : Service} (hs : Stored s) (start : OsState) (os : Snapshot)
    (host : String) (ids : String → Nat) (templates : List (String × Service.Config))
    (env : Env) {d : Service} (hd : SameService (enhance env os.toOsState d) s) :
    Recognised start os.toOsState host ids templates env s d
      ↔ s.sockets ≠ [] ∨ (s.type = "unknown" ∧ s.name = firstName (paths s)) := by
  obtain ⟨loaded, hload, hfrom⟩ := exists_loaded start hs.savable host ids
  have hmerge := services_addService_singleton env os.toOsState loaded d templates
  rw [equals_loaded_iff hfrom hd, needSocketFrom_loaded_iff hfrom os hd] at hmerge
  rw [← hmerge]
  constructor
  · rintro ⟨loaded', hload', h⟩
    obtain rfl : loaded = loaded' := Option.some.inj (hload.symm.trans hload')
    exact h
  · intro h
    exact ⟨loaded, hload, h⟩

/-! ### A unit without sockets -/

/-- The unit of `cron`, before and after a restart. -/
def cronAt (pid : Nat) (hpids : (OsState.ofProcs [(pid, {})]).pids = [pid]) (hzero : pid ≠ 0) :
    Snapshot :=
  Snapshot.ofProcs [(pid, { exe := some "/usr/sbin/cron" })] {} hpids
    (by simpa using Ne.symm hzero)

def cronStarted : Snapshot := cronAt 10 (by decide) (by decide)

def cronRestarted : Snapshot := cronAt 20 (by decide) (by decide)

/-- The service the systemd detector makes for the unit. -/
def cronService (env : Env) (os : Snapshot) (pid : Nat) : Service :=
  SystemdDetector.newService env os.toOsState "cron_2eservice"
    (Process.ofPid os.toOsState pid)

/-- An agent that sets the type of the services of `cron`. -/
def typedCron : Env where
  enhancers := [.lua (fun s => if s.name = "cron" then [.setType "scheduler"] else [])]

/-- What the manager stores for the unit then. -/
def typedCronStored : Service :=
  enhance typedCron cronStarted.toOsState (cronService typedCron cronStarted 10)

/-- Without a type the unit is recognised after a restart. -/
theorem recognised_untyped : Recognised cronStarted.toOsState cronRestarted.toOsState ""
    (fun _ => 0) [] {} (enhance {} cronStarted.toOsState (cronService {} cronStarted 10))
    (cronService {} cronRestarted 20) := by
  refine (recognised_iff (.added {} _ (.systemd {} _ _ _)) _ cronRestarted _ _ _ {} ?_).mpr
    (.inr (by decide))
  exact { name := by decide, uniqName := by decide, type := by decide, sources := by decide,
          paths := by decide }

/-- With a type it is not: the loaded service is of type `unknown`. -/
theorem not_recognised_typed : ∃ s d : Service, Stored s ∧
    SameService (enhance typedCron cronRestarted.toOsState d) s ∧
    ¬ Recognised cronStarted.toOsState cronRestarted.toOsState "" (fun _ => 0) []
      typedCron s d := by
  refine ⟨typedCronStored, cronService typedCron cronRestarted 20, ?_, ?_, ?_⟩
  · exact .added typedCron _ (.systemd _ _ _ _)
  · exact { name := by decide, uniqName := by decide, type := by decide, sources := by decide,
            paths := by decide }
  · rintro ⟨loaded, hload, hmerge⟩
    have htwo : (Service.ofConfig cronStarted.toOsState "" (fun _ => 0)
        typedCronStored.setDefaultConfig).map
        (fun l => (addService typedCron cronRestarted.toOsState { services := [l] }
          (cronService typedCron cronRestarted 20)).services.length) = some 2 := by
      decide
    rw [hload, Option.map_some, hmerge] at htwo
    exact absurd htwo (by simp)

end Recognition

end WatchedAgent.Proofs
