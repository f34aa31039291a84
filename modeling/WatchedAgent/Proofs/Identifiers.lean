import WatchedAgent.Lib.Run
import WatchedAgent.Proofs.ManagerOps

/-!
# `WatchedAgent.Proofs.Identifiers`: the identifiers of the services

The status documents and the routes name a service by `getID`, the name and the unique key.
`addService` decides by `operator==` and `needSocketFrom`, which read the name, the type
and the sockets.

* `doGetServiceStatus_of_nodup` and `doGetAllJson_of_nodup`: with distinct identifiers
  every service can be asked for, and has its own member of `res["services"]`.
* `getID_updateFrom`: the identifier a merge leaves, which may fill an empty name or key.
* `nodup_ids_step_iff`: what a call of `addService` has to store or to leave.
-/

set_option autoImplicit false

namespace WatchedAgent.Proofs

open WatchedAgent.Lib
open WatchedAgent.Lib.Run
open WatchedAgent.Model
open WatchedAgent.Model.ServicesManager

/-- The identifiers of the stored services. -/
def ids (m : ServicesManager) : List String := m.services.map Service.getID

/-- The identifiers are distinct, a request for the identifier of a service is answered by
that service, and each service has its own member of `res["services"]`. -/
structure Identified (m : ServicesManager) : Prop where
  nodup : (ids m).Nodup
  reached : ∀ env os j s, m.services[j]? = some s → m.doGetServiceStatus env os s.getID
    = (m.statusOf env os j).map (fun r => (r.1, .ok r.2))
  members : ∀ env os r, m.doGetAllJson env os = some r → r.2.map Prod.fst = ids m

/-! ### What distinct identifiers give -/

section Readers
variable {m : ServicesManager} (h : (ids m).Nodup)
include h

/-- A request for the identifier of a service reaches that service. -/
theorem doGetServiceStatus_of_nodup (env : Env) (os : OsState) {j : Nat} {s : Service}
    (hs : m.services[j]? = some s) : m.doGetServiceStatus env os s.getID
      = (m.statusOf env os j).map (fun r => (r.1, .ok r.2)) := by
  have hfind : m.services.findIdx? (fun t => t.getID == s.getID) = some j := by
    obtain ⟨hj, hget⟩ := List.getElem?_eq_some_iff.mp hs
    rw [List.findIdx?_eq_some_iff_getElem]
    refine ⟨hj, ?_, ?_⟩
    · rw [hget]
      exact beq_self_eq_true _
    · -- An earlier service with the identifier would repeat it.
      intro i hi hsame
      have hlt : i < (ids m).length := by
        rw [ids, List.length_map]
        omega
      have heq : (ids m)[i]? = (ids m)[j]? := by
        rw [ids, List.getElem?_map, List.getElem?_map, hs, List.getElem?_eq_getElem,
          Option.map_some, Option.map_some, beq_iff_eq.mp hsame]
        exact Nat.lt_trans hi hj
      have hij := (List.getElem?_inj hlt h).mp heq
      omega
  unfold doGetServiceStatus
  rw [hfind]

/-- The loop of `doGetAllJson` has written a member for each service before the `j`-th, and
writes one for each later service. The services from the `j`-th on are as in `m`. -/
theorem keys_servicesJson (env : Env) (os : OsState) (n j : Nat) (m' : ServicesManager)
    (obj : List (String × StatusDoc)) (r : ServicesManager × List (String × StatusDoc))
    (hlen : j + n = m.services.length) (hlater : ∀ i, j ≤ i → m'.services[i]? = m.services[i]?)
    (hobj : obj.map Prod.fst = (ids m).take j) (hr : servicesJson env os n j m' obj = some r) :
    r.2.map Prod.fst = ids m := by
  induction n generalizing j m' obj with
  | zero =>
      have hj : (ids m).length ≤ j := by
        rw [ids, List.length_map]
        omega
      rw [servicesJson, Option.some.injEq] at hr
      rw [← hr]
      show obj.map Prod.fst = ids m
      rw [hobj, List.take_of_length_le hj]
  | succ n ih =>
      have hj : j < m.services.length := by omega
      have hids : j < (ids m).length := by
        rw [ids, List.length_map]
        exact hj
      -- The key is that of `m`, because the requests so far changed earlier services.
      have hkey : ((m'.services[j]?).map Service.getID).getD "" = (ids m)[j] := by
        rw [hlater j (Nat.le_refl j), List.getElem?_eq_getElem hj]
        simp [ids]
      rw [servicesJson] at hr
      simp only [Option.bind_eq_bind, Option.bind_eq_some_iff] at hr
      obtain ⟨⟨m₁, doc⟩, hstatus, hr⟩ := hr
      rw [hkey] at hr
      refine ih (j + 1) m₁ _ (by omega) ?_ ?_ hr
      · -- The status request changes the `j`-th service only.
        intro i hi
        unfold statusOf at hstatus
        simp only [Option.bind_eq_bind, Option.bind_eq_some_iff, Option.pure_def,
          Option.some.injEq, Prod.mk.injEq] at hstatus
        obtain ⟨s, -, ⟨s', doc'⟩, -, rfl, -⟩ := hstatus
        rw [List.getElem?_set_ne (by omega)]
        exact hlater i (by omega)
      · -- The key is new, so no member is overwritten.
        have hfresh : (ids m)[j] ∉ (ids m).take j := by
          have hdrop := List.nodup_append.mp (by
            rw [List.take_append_drop j (ids m)]
            exact h)
          intro hmem
          exact hdrop.2.2 _ hmem _ (by
            rw [List.drop_eq_getElem_cons hids]
            exact List.mem_cons_self) rfl
        have hkeep : obj.filter (fun e => e.1 != (ids m)[j]) = obj := by
          rw [List.filter_eq_self]
          intro e he
          rw [bne_iff_ne]
          intro heq
          exact hfresh (heq ▸ hobj ▸ List.mem_map_of_mem he)
        unfold setMember
        rw [hkeep, List.map_append, hobj, List.map_singleton, List.take_append_getElem]

/-- Each service has its own member of `res["services"]`, in order. -/
theorem doGetAllJson_of_nodup (env : Env) (os : OsState)
    {r : ServicesManager × List (String × StatusDoc)} (hr : m.doGetAllJson env os = some r) :
    r.2.map Prod.fst = ids m :=
  keys_servicesJson h env os m.services.length 0 m [] r (by omega) (fun _ _ => rfl) rfl hr

/-- Distinct identifiers are all that is needed. -/
theorem identified_of_nodup : Identified m where
  nodup := h
  reached := fun env os _ _ hs => doGetServiceStatus_of_nodup h env os hs
  members := fun env os _ hr => doGetAllJson_of_nodup h env os hr

end Readers

/-! ### The identifier a merge leaves -/

section Merge
variable (os : OsState) (s add : Service)

/-- The name after a merge: an empty one is filled when no main process stays. -/
def mergedName : String :=
  match add.mainProcess with
  | [] => s.name
  | p :: _ =>
      if s.mainProcess.eraseP (Service.isOutdated os p) = [] ∧ s.name = "" then p.baseName
      else s.name

/-- The unique key after a merge: an empty one is filled when no other socket stays. -/
def mergedKey : String :=
  match add.sockets with
  | [] => s.uniqName
  | sock :: _ =>
      if s.sockets.eraseP (fun j => j.getSource == sock.getSource) = [] ∧ s.uniqName = "" then
        Service.uniqKeyOf sock.getSource
      else s.uniqName

/-- The identifier after a merge. -/
def mergedID : String := mergedName os s add ++ "-" ++ mergedKey s add

/-- With a source that stays, setting more sockets leaves the unique key alone. -/
theorem uniqName_foldl_replaceSocket (socks : List Socket) (s : Service)
    (hstay : ∃ source ∈ s.sources, source ∉ socks.map Socket.getSource) :
    (socks.foldl Service.replaceSocket s).uniqName = s.uniqName := by
  induction socks generalizing s with
  | nil => rfl
  | cons sock socks ih =>
      obtain ⟨source, hsource, hnot⟩ := hstay
      rw [List.map_cons, List.mem_cons, not_or] at hnot
      obtain ⟨e, he, rfl⟩ := List.mem_map.mp hsource
      -- The source that stays keeps its entry, so the list is never empty.
      have hkept : s.sockets.eraseP (fun j => j.getSource == sock.getSource) ≠ [] := by
        have hmem := (List.mem_eraseP_of_neg (p := fun j => j.getSource == sock.getSource)
          (l := s.sockets) (by simpa using hnot.1)).mpr he
        exact List.ne_nil_of_mem hmem
      rw [List.foldl_cons, ih (s.replaceSocket sock) ⟨e.getSource,
        (Service.mem_sources_replaceSocket s sock).mpr (.inl hsource), hnot.2⟩]
      unfold Service.replaceSocket
      rw [Service.uniqName_setSocket]
      exact if_neg (fun h => hkept h.1)

/-- The identifier after a merge with a service of one process. -/
theorem getID_updateFrom {p : Process} (hmain : add.mainProcess = [p])
    (hnodup : add.sources.Nodup) : (s.updateFrom os add).getID = mergedID os s add := by
  have hname : (s.updateFrom os add).name = mergedName os s add := by
    rw [Service.name_updateFrom os s add hmain]
    unfold mergedName Service.named Service.withoutOutdated
    rw [hmain]
    dsimp only
    split <;> rfl
  have hkey : (s.updateFrom os add).uniqName = mergedKey s add := by
    have hupdate : (s.updateFrom os add).uniqName
        = (add.sockets.foldl Service.replaceSocket (s.withProcesses os add)).uniqName := by
      rw [Service.updateFrom_eq]
    rw [hupdate]
    unfold mergedKey
    unfold Service.sources at hnodup
    cases hsocks : add.sockets with
    | nil => exact Service.uniqName_withProcesses os s add
    | cons sock socks =>
        rw [hsocks, List.map_cons, List.nodup_cons] at hnodup
        -- The first socket stays, so the later ones leave the key alone.
        rw [List.foldl_cons, uniqName_foldl_replaceSocket socks _ ⟨sock.getSource,
          (Service.mem_sources_replaceSocket _ sock).mpr (.inr rfl), hnodup.1⟩]
        unfold Service.replaceSocket
        rw [Service.uniqName_setSocket, Service.sockets_withProcesses]
        show (if _ ∧ (s.withProcesses os add).uniqName = "" then _
          else (s.withProcesses os add).uniqName) = _
        rw [Service.uniqName_withProcesses]
  unfold Service.getID mergedID
  rw [hname, hkey]

end Merge

/-! ### Runs -/

/-- A call of `addService` on a service that a detector builds. The enhancers and the
moment of the system are those of the call. -/
inductive Add where
  | socket (env : Env) (os : OsState) (socks : List Socket) (p : Process) (it : Socket)
  | unit (env : Env) (os : OsState) (small : String) (p : Process)

namespace Add

/-- The moment of the system. -/
def os : Add → OsState
  | socket _ os .. => os
  | unit _ os .. => os

/-- The environment of the agent. -/
def env : Add → Env
  | socket env .. => env
  | unit env .. => env

/-- The service the detector builds. -/
def service : Add → Service
  | socket env os socks p it => SocketDetector.newService env os socks p it
  | unit env os small p => SystemdDetector.newService env os small p

/-- The service after the enhancers. -/
def enhanced (a : Add) : Service := enhance a.env a.os a.service

/-- The call. -/
def step (m : ServicesManager) (a : Add) : ServicesManager := m.addService a.env a.os a.service

/-- A detector builds a service with one process, and one entry for each source. -/
theorem enhanced_spec (a : Add) :
    (∃ p, a.enhanced.mainProcess = [p]) ∧ a.enhanced.sources.Nodup := by
  unfold enhanced
  rw [mainProcess_enhance, sources_enhance]
  cases a with
  | socket env os socks p it =>
      exact ⟨⟨p, SocketDetector.mainProcess_newService env os socks p it⟩,
        SocketDetector.nodup_sources_newService env os socks p it⟩
  | unit env os small p =>
      obtain ⟨hmain, -, hsockets⟩ := SystemdDetector.lists_newService env os small p
      refine ⟨⟨p, hmain⟩, ?_⟩
      show (SystemdDetector.newService env os small p).sources.Nodup
      unfold Service.sources
      rw [hsockets]
      exact List.nodup_nil

end Add

/-- The identifier that the call stores or leaves is none of the others. Which calls are fresh
is read off what the detector finds in `Proofs.Collisions`. -/
def Fresh (m : ServicesManager) (a : Add) : Prop :=
  match m.mergeTarget a.os a.enhanced with
  | none => a.enhanced.getID ∉ ids m
  | some k => ∀ s, m.services[k]? = some s →
      mergedID a.os s a.enhanced ∉ (m.services.eraseIdx k).map Service.getID

/-- From distinct identifiers, a call leads to distinct identifiers exactly when its own is
fresh. -/
theorem nodup_ids_step_iff (m : ServicesManager) (a : Add) (h : (ids m).Nodup) :
    (ids (a.step m)).Nodup ↔ Fresh m a := by
  obtain ⟨⟨p, hmain⟩, hnodup⟩ := a.enhanced_spec
  have hserv : (a.step m).services = _ := services_addService a.env a.os m a.service
  rw [show enhance a.env a.os a.service = a.enhanced from rfl] at hserv
  unfold Fresh
  unfold ids at h ⊢
  rw [hserv]
  cases htarget : m.mergeTarget a.os a.enhanced with
  -- A new service: its identifier is added to the others.
  | none =>
      dsimp only
      rw [List.map_append, List.map_singleton, List.nodup_append_comm, List.singleton_append,
        List.nodup_cons]
      exact and_iff_left h
  | some k =>
      dsimp only
      cases hs : m.services[k]? with
      | none =>
          have hlen : m.services.length ≤ k := List.getElem?_eq_none_iff.mp hs
          rw [List.modify_eq_self hlen]
          exact iff_of_true h (fun s hs => absurd hs (by simp))
      | some s =>
          rw [nodup_map_modify_iff Service.getID _ hs h, getID_updateFrom a.os s _ hmain hnodup]
          simp

end WatchedAgent.Proofs
