import WatchedAgent.Model.Status
import WatchedAgent.Proofs.Coverage

/-!
# `WatchedAgent.Proofs.Restart`: the entry of a socket after a restart

A service has one entry for each source, and the entry carries an inode. After a restart
the socket has a new inode, so the entry has to be replaced before the service counts it
as held. `Seen` says that the entry of a source carries an inode that a live main process
of the service holds, and `reported_ok_iff` connects it to the status document.

Two visits touch the entries of a service: a known process reads its descriptors again,
and a new process is merged. The merge replaces the entry (`seen_updateFrom_iff`). The
known process goes through `setSocket`, which never replaces one (`seen_associate_iff`).
`find_sees_again_iff` gives the exact condition for a whole pass: the last visit that
touches the service decides. `not_find_sees_again` is a restarted process whose PID was
learned before the pass: the entry stays outdated.
-/

set_option autoImplicit false

namespace WatchedAgent.Proofs

open WatchedAgent.Lib
open WatchedAgent.Lib.Run
open WatchedAgent.Model
open WatchedAgent.Model.ServicesManager
open WatchedAgent.Model.SocketDetector

/-- The service has an entry for the source, with an inode that a live main process
holds. -/
def Seen (os : OsState) (s : Service) (source : String) : Prop :=
  ∃ e ∈ s.sockets, e.getSource = source ∧ s.haveSocket os e.id = true

instance (os : OsState) (s : Service) (source : String) : Decidable (Seen os s source) :=
  inferInstanceAs (Decidable (∃ e ∈ s.sockets, e.getSource = source ∧ _))

/-- The status document reports a source as `ok` exactly when it is seen, where the
handler, if it is asked, leaves the service alone. -/
theorem reported_ok_iff {env : Env} {os : OsState} {s s' : Service} {isBlackout : Bool}
    {doc : StatusDoc} {source : String} (hask : s.askHandler env os = some (s, isBlackout))
    (h : s.getJsonStatus env os = some (s', doc)) :
    (∃ e ∈ doc.sockets, e.name = source ∧ e.status = "ok") ↔ Seen os s source := by
  have hsockets : doc.sockets = s.sockets.map (s.socketStatus os isBlackout) := by
    unfold Service.getJsonStatus at h
    rw [hask] at h
    simp only [Option.bind_eq_bind, Option.bind_some, Option.pure_def, Option.some.injEq,
      Prod.mk.injEq] at h
    rw [← h.2]
  -- The handler cannot turn a failed entry into the text `ok`.
  have hok : ∀ i : Socket, (s.socketStatus os isBlackout i).status = "ok"
      ↔ s.haveSocket os i.id = true := by
    intro i
    unfold Service.socketStatus Service.failedText
    dsimp only
    cases s.haveSocket os i.id with
    | true => simp
    | false => cases isBlackout <;> simp
  rw [hsockets]
  unfold Seen
  simp only [List.mem_map, exists_exists_and_eq_and, hok]
  rfl

/-! ### The two visits -/

section Associate
variable (os : OsState) (socks : List Socket) (s : Service) {source : String}

/-- Setting the held sockets keeps every entry: a source is seen afterwards when its entry
was, or when it had no entry and a held socket has it. -/
theorem seen_associate_iff : Seen os (associate os socks s) source ↔
    Seen os s source ∨ (source ∉ s.sources ∧
      ∃ i ∈ socks, s.haveSocket os i.id = true ∧ i.getSource = source) := by
  unfold Seen
  simp only [haveSocket_associate]
  unfold associate
  induction socks generalizing s with
  | nil => simp
  | cons i socks ih =>
      rw [List.foldl_cons]
      cases hi : s.haveSocket os i.id with
      | false =>
          rw [if_neg (by simp), ih]
          simp [hi]
      | true =>
          rw [if_pos rfl]
          -- `i` is held and set. What follows sees its source among the sources.
          have hrest := ih (s.setSocket i)
          simp only [Service.mem_sources_setSocket,
            Service.haveSocket_setSocket] at hrest
          rw [hrest, Service.sockets_setSocket]
          by_cases hmem : i.getSource ∈ s.sources
          · -- The source of `i` has an entry already, so `i` is dropped.
            rw [if_pos hmem]
            have hsame : source ∉ s.sources → i.getSource ≠ source := by
              intro hno heq
              exact hno (heq ▸ hmem)
            constructor
            · intro h
              rcases h with h | ⟨hno, j, hj, hheld, heq⟩
              · exact .inl h
              · exact .inr ⟨fun h => hno (.inl h), j, List.mem_cons_of_mem i hj, hheld, heq⟩
            · intro h
              rcases h with h | ⟨hno, j, hj, hheld, heq⟩
              · exact .inl h
              · rcases List.mem_cons.mp hj with rfl | hj
                · exact absurd heq (hsame hno)
                · refine .inr ⟨?_, j, hj, hheld, heq⟩
                  intro h
                  exact h.elim hno (fun h => hsame hno h.symm)
          · -- The source of `i` is new, so `i` becomes its entry.
            rw [if_neg hmem]
            simp only [List.mem_append, List.mem_singleton]
            constructor
            · intro h
              rcases h with ⟨e, he | rfl, heq, hheld⟩ | ⟨hno, j, hj, hheld, heq⟩
              · exact .inl ⟨e, he, heq, hheld⟩
              · exact .inr ⟨heq ▸ hmem, e, List.mem_cons_self, hheld, heq⟩
              · exact .inr ⟨fun h => hno (.inl h), j, List.mem_cons_of_mem i hj, hheld, heq⟩
            · intro h
              rcases h with ⟨e, he, heq, hheld⟩ | ⟨hno, j, hj, hheld, heq⟩
              · exact .inl ⟨e, .inl he, heq, hheld⟩
              · by_cases hfirst : i.getSource = source
                · exact .inl ⟨i, .inr rfl, hfirst, hi⟩
                · rcases List.mem_cons.mp hj with rfl | hj
                  · exact absurd heq hfirst
                  · refine .inr ⟨?_, j, hj, hheld, heq⟩
                    intro h
                    exact h.elim hno (fun h => hfirst h.symm)

end Associate

section Merge
variable (env : Env) (os : Snapshot) (socks : List Socket) (s : Service) (pid : Nat)
  {it : Socket} {source : String}

/-- The entries of a service built for a visited process are sockets the process holds. -/
theorem holds_of_mem_sockets_newService (hit : firstHeld os.toOsState socks pid = some it)
    {e : Socket}
    (he : e ∈ (newService env os.toOsState socks (detected os.toOsState pid) it).sockets) :
    Holds os.toOsState pid e.id := by
  -- The first entry is the socket the service is built for.
  have hfirst : (firstService env os.toOsState (detected os.toOsState pid) it).sockets = [it] := by
    unfold firstService
    rw [Service.sockets_addMainProcess, Service.sockets_setSocket, if_neg (by
      unfold Service.sources
      rw [sockets_new]
      simp), sockets_new]
    rfl
  have hheld : ∀ id, (firstService env os.toOsState (detected os.toOsState pid) it).haveSocket
      os.toOsState id = true → Holds os.toOsState pid id := by
    intro id h
    rw [Service.haveSocket_iff, (lists_firstService env os.toOsState _ it).1] at h
    obtain ⟨p, hp, -, hid⟩ := h
    rw [List.mem_singleton] at hp
    subst hp
    exact (haveSocket_detected os.toOsState pid id).mp hid
  rw [newService_eq] at he
  rcases mem_sockets_associate os.toOsState socks _ he with he | ⟨-, he⟩
  · rw [hfirst, List.mem_singleton] at he
    rw [he]
    exact (holds_of_firstHeld os.toOsState socks pid hit).2
  · exact hheld e.id he

/-- A merge with a new process sees a source that the process holds. For any other source,
the entry stays, and it counts when the process or a main process that is not its child
holds it. -/
theorem seen_updateFrom_iff (hdistinct : s.sources.Nodup)
    (hparent : os.ppid pid ∉ s.mainProcess.map Process.pid)
    (hit : firstHeld os.toOsState socks pid = some it) :
    Seen os.toOsState (s.updateFrom os.toOsState (enhance env os.toOsState
      (newService env os.toOsState socks (detected os.toOsState pid) it))) source ↔
    (∃ i ∈ socks, Holds os.toOsState pid i.id ∧ i.getSource = source) ∨
      ∃ e ∈ s.sockets, e.getSource = source ∧ (Holds os.toOsState pid e.id ∨
        ∃ q ∈ s.mainProcess, q.getPPID os.toOsState ≠ pid ∧ q.getStatus os.toOsState = true ∧
          q.haveSocket e.id = true) := by
  generalize hadd : enhance env os.toOsState
    (newService env os.toOsState socks (detected os.toOsState pid) it) = add
  have hholds := (holds_of_firstHeld os.toOsState socks pid hit).2
  have halive := alive_of_holds os.toOsState pid hholds
  have hpid : pid ≠ 0 := os.ne_zero_of_alive halive
  have hmain : add.mainProcess = [detected os.toOsState pid] := by
    rw [← hadd, mainProcess_enhance, mainProcess_newService]
  have hsockets : ∀ e ∈ add.sockets, Holds os.toOsState pid e.id := by
    intro e he
    rw [← hadd, sockets_enhance] at he
    exact holds_of_mem_sockets_newService env os socks pid hit he
  have hsources : ∀ source, source ∈ add.sources
      ↔ ∃ i ∈ socks, Holds os.toOsState pid i.id ∧ i.getSource = source := by
    intro source
    rw [← hadd, sources_enhance]
    exact mem_sources_newService_iff env os.toOsState socks pid hit
  have hheld : ∀ id, (s.updateFrom os.toOsState add).haveSocket os.toOsState id = true ↔
      Holds os.toOsState pid id ∨ ∃ q ∈ s.mainProcess, q.getPPID os.toOsState ≠ pid ∧
        q.getStatus os.toOsState = true ∧ q.haveSocket id = true := by
    intro id
    rw [Service.haveSocket_updateFrom os.toOsState s add hmain (by rw [pid_detected]; exact hpid)
      (by rw [getPPID_detected]; exact hparent), pid_detected, haveSocket_detected,
      getStatus_detected, halive, or_comm]
    simp
  have hdistinct' : (s.withProcesses os.toOsState add).sources.Nodup := by
    unfold Service.sources
    rw [Service.sockets_withProcesses]
    exact hdistinct
  unfold Seen
  rw [Service.sockets_updateFrom, ← hsources]
  by_cases hsource : source ∈ add.sources
  · -- The source has a new entry, and the process holds its inode.
    obtain ⟨e, he, heq, hmem⟩ := Service.exists_mem_sockets_foldl_replaceSocket
      (s.withProcesses os.toOsState add) add.sockets hdistinct' hsource
    exact iff_of_true ⟨e, he, heq, (hheld e.id).mpr (.inl (hsockets e hmem))⟩ (.inl hsource)
  · -- The merge leaves the entry alone, so what is held now decides.
    rw [or_iff_right hsource]
    refine exists_congr fun e => ?_
    rw [hheld e.id, and_left_comm, and_left_comm (a := e ∈ s.sockets)]
    refine and_congr_right fun heq => ?_
    rw [Service.mem_sockets_foldl_replaceSocket _ add.sockets hdistinct' (by
      rw [heq]
      exact hsource), Service.sockets_withProcesses]

end Merge

/-! ### One visit -/

/-- Every service has one entry for each of its sources. -/
def DistinctSources (m : ServicesManager) : Prop := ∀ s ∈ m.services, s.sources.Nodup

/-- The service at the place `k` sees the source. -/
def SeenAt (os : OsState) (m : ServicesManager) (k : Nat) (source : String) : Prop :=
  ∃ s, m.services[k]? = some s ∧ Seen os s source

section Visit
variable (env : Env) (os : Snapshot) (socks : List Socket) (m : ServicesManager) (pid : Nat)

/-- The place of the service whose entries a visit may change: the service of a known
process, or the one a new process is merged into. -/
def visitTarget : Option Nat :=
  if m.havePID pid then m.services.findIdx? (fun s => s.havePID pid)
  else if m.havePID (os.ppid pid) ∨ matchList (Process.ofPid os.toOsState pid) env.socketBlackList
    then none
  else (firstHeld os.toOsState socks pid).bind (fun it => m.mergeTarget os.toOsState
    (enhance env os.toOsState (newService env os.toOsState socks (detected os.toOsState pid) it)))

/-- The state before a visit that makes its target `k` see the source.

A known process: after it read its descriptors, a main process holds the inode of the
entry, or there is no entry and a main process holds a scanned socket with the source. A
new process: it holds a scanned socket with the source, or the inode of the entry is held
by it or by a main process that is not its child. -/
def SeesAt (k : Nat) (source : String) : Prop :=
  ∃ s, m.services[k]? = some s ∧
    if m.havePID pid then
      Seen os.toOsState (s.setSocketsOf os.toOsState pid) source ∨ (source ∉ s.sources ∧
        ∃ i ∈ socks, (s.setSocketsOf os.toOsState pid).haveSocket os.toOsState i.id = true ∧
          i.getSource = source)
    else
      (∃ i ∈ socks, Holds os.toOsState pid i.id ∧ i.getSource = source) ∨
        ∃ e ∈ s.sockets, e.getSource = source ∧ (Holds os.toOsState pid e.id ∨
          ∃ q ∈ s.mainProcess, q.getPPID os.toOsState ≠ pid ∧ q.getStatus os.toOsState = true ∧
            q.haveSocket e.id = true)

/-- A merge or a new service keeps one entry for each source. -/
theorem distinctSources_addService {m : ServicesManager} {serv : Service}
    (h : DistinctSources m) (hserv : serv.sources.Nodup) :
    DistinctSources (m.addService env os.toOsState serv) := by
  intro s hs
  rcases addService_merge_or_store env os.toOsState m serv with ⟨test, -, hmerge⟩ | hstore
  · rw [hmerge] at hs
    rcases mem_modifyFirst _ _ hs with hs | ⟨i, hi, -, rfl⟩
    · exact h s hs
    · exact Service.nodup_sources_updateFrom os.toOsState i _ (h i hi)
  · rw [hstore, List.mem_append, List.mem_singleton] at hs
    rcases hs with hs | rfl
    · exact h s hs
    · rw [sources_enhance]
      exact hserv

/-- A visit keeps one entry for each source. -/
theorem distinctSources_visit {m : ServicesManager} (h : DistinctSources m) :
    DistinctSources (visit env os.toOsState socks m pid) := by
  rcases visit_cases env os.toOsState socks m pid with
    ⟨-, hserv⟩ | ⟨-, -, hserv⟩ | ⟨-, -, -, hsame⟩ | ⟨-, -, -, it, -, hadd⟩
  · -- A known process: `setSocket` adds no second entry.
    intro s hs
    rw [hserv] at hs
    rcases mem_modifyFirst _ _ hs with hs | ⟨i, hi, -, rfl⟩
    · exact h s hs
    · refine nodup_sources_associate os.toOsState socks _ ?_
      rw [sources_setSocketsOf]
      exact h i hi
  · intro s hs
    rw [hserv] at hs
    rcases mem_modifyFirst _ _ hs with hs | ⟨i, hi, -, rfl⟩
    · exact h s hs
    · unfold Service.sources
      rw [Service.sockets_addSubProcess]
      exact h i hi
  · rw [hsame]
    exact h
  · rw [hadd]
    exact distinctSources_addService env os h
      (nodup_sources_newService env os.toOsState socks (detected os.toOsState pid) it)

/-- A visit keeps the place of every service. -/
theorem length_services_visit_ge :
    m.services.length ≤ (visit env os.toOsState socks m pid).services.length := by
  rcases visit_cases env os.toOsState socks m pid with
    ⟨-, hserv⟩ | ⟨-, -, hserv⟩ | ⟨-, -, -, hsame⟩ | ⟨-, -, -, it, -, hadd⟩
  · exact Nat.le_of_eq (by rw [hserv, length_modifyFirst])
  · exact Nat.le_of_eq (by rw [hserv, length_modifyFirst])
  · exact Nat.le_of_eq (by rw [hsame])
  · rw [hadd, services_addService]
    split
    · exact Nat.le_of_eq (by rw [List.length_modify])
    · rw [List.length_append]
      omega

/-- The service a visit builds for a new process, after the enhancers. -/
def visitService (it : Socket) : Service :=
  enhance env os.toOsState (newService env os.toOsState socks (detected os.toOsState pid) it)

/-- The target of a visit, and what the visit does to it. -/
theorem visitTarget_cases :
    (m.havePID pid = true ∧
      visitTarget env os socks m pid = m.services.findIdx? (fun s => s.havePID pid) ∧
      (visit env os.toOsState socks m pid).services = modifyFirst (fun s => s.havePID pid)
        (updateKnown os.toOsState socks pid) m.services) ∨
    (visitTarget env os socks m pid = none ∧ ∃ test p,
      (visit env os.toOsState socks m pid).services
        = modifyFirst test (fun s : Service => s.addSubProcess p) m.services) ∨
    (visitTarget env os socks m pid = none ∧ visit env os.toOsState socks m pid = m) ∨
    (m.havePID pid = false ∧ m.havePID (os.ppid pid) = false ∧
      ∃ it, firstHeld os.toOsState socks pid = some it ∧
        visitTarget env os socks m pid
          = m.mergeTarget os.toOsState (visitService env os socks pid it) ∧
        (visit env os.toOsState socks m pid).services
          = match m.mergeTarget os.toOsState (visitService env os socks pid it) with
            | some k => m.services.modify k
                (fun i => i.updateFrom os.toOsState (visitService env os socks pid it))
            | none => m.services ++ [visitService env os socks pid it]) := by
  unfold visitTarget visitService
  rcases visit_cases env os.toOsState socks m pid with
    ⟨hknown, hserv⟩ | ⟨hpid, hparent, hserv⟩ | ⟨hpid, hparent, hno, hsame⟩
      | ⟨hpid, hparent, hblack, it, hit, hadd⟩
  · exact .inl ⟨hknown, by rw [if_pos hknown], hserv⟩
  · -- The child of a known process changes no entry.
    refine .inr (.inl ⟨?_, _, _, hserv⟩)
    rw [hpid, if_neg (by simp), if_pos (.inl hparent)]
  · refine .inr (.inr (.inl ⟨?_, hsame⟩))
    rw [hpid, if_neg (by simp)]
    split
    · rfl
    · rename_i hneg
      rcases hno with hblack | hnone
      · exact absurd (.inr hblack) hneg
      · rw [hnone, Option.bind_none]
  · refine .inr (.inr (.inr ⟨hpid, hparent, it, hit, ?_, ?_⟩))
    · rw [hpid, hparent, hblack, hit]
      simp
    · rw [hadd]
      exact services_addService env os.toOsState m _

/-- A visit decides whether its target sees the source, and leaves the other services
alone in this. -/
theorem seenAt_visit_iff {k : Nat} {source : String} (hk : k < m.services.length)
    (hdistinct : DistinctSources m) :
    SeenAt os.toOsState (visit env os.toOsState socks m pid) k source ↔
      (visitTarget env os socks m pid = some k ∧ SeesAt os socks m pid k source) ∨
      (¬ visitTarget env os socks m pid = some k ∧ SeenAt os.toOsState m k source) := by
  obtain ⟨s, hs⟩ : ∃ s, m.services[k]? = some s := ⟨_, List.getElem?_eq_getElem hk⟩
  have hmem : s ∈ m.services := List.mem_of_getElem? hs
  have hbefore : SeenAt os.toOsState m k source ↔ Seen os.toOsState s source := by
    unfold SeenAt
    rw [hs]
    simp
  -- What the state afterwards has at `k` is what decides.
  have hafter : ∀ s', (visit env os.toOsState socks m pid).services[k]? = some s' →
      (SeenAt os.toOsState (visit env os.toOsState socks m pid) k source
        ↔ Seen os.toOsState s' source) := by
    intro s' hs'
    unfold SeenAt
    rw [hs']
    simp
  rcases visitTarget_cases env os socks m pid with
    ⟨hknown, htarget, hserv⟩ | ⟨htarget, test, p, hserv⟩ | ⟨htarget, hsame⟩
      | ⟨hpid, hparent, it, hit, htarget, hserv⟩
  · rw [htarget]
    -- A known process: only the first service that lists it is touched.
    by_cases hhere : m.services.findIdx? (fun s => s.havePID pid) = some k
    · rw [hafter (updateKnown os.toOsState socks pid s) (by
        rw [hserv, getElem?_modifyFirst, if_pos hhere, hs]
        rfl)]
      unfold SeesAt updateKnown
      rw [hs, hknown, seen_associate_iff, sources_setSocketsOf]
      simp [hhere]
    · rw [hafter s (by rw [hserv, getElem?_modifyFirst, if_neg hhere, hs]), hbefore]
      simp [hhere]
  · -- The new subprocess changes neither the entries nor what counts as held.
    have hsub : Seen os.toOsState (s.addSubProcess p) source ↔ Seen os.toOsState s source := by
      unfold Seen Service.haveSocket
      rw [Service.sockets_addSubProcess, Service.mainProcess_addSubProcess]
    have hkept : SeenAt os.toOsState (visit env os.toOsState socks m pid) k source
        ↔ Seen os.toOsState s source := by
      by_cases hhere : m.services.findIdx? test = some k
      · rw [hafter (s.addSubProcess p) (by
          rw [hserv, getElem?_modifyFirst, if_pos hhere, hs]
          rfl), hsub]
      · rw [hafter s (by rw [hserv, getElem?_modifyFirst, if_neg hhere, hs])]
    rw [hkept, hbefore, htarget]
    simp
  · rw [hsame, htarget]
    simp
  · rw [htarget]
    -- A new process: it is stored behind the others, or merged into one of them.
    cases hmerge : m.mergeTarget os.toOsState (visitService env os socks pid it) with
    | none =>
        rw [hafter s (by
          rw [hserv, hmerge]
          exact (List.getElem?_append_left hk).trans hs), hbefore]
        simp
    | some j =>
        by_cases hj : j = k
        · subst hj
          have hparent' : os.ppid pid ∉ s.mainProcess.map Process.pid :=
            fun h => not_mem_pids_of_unknown hparent hmem (List.mem_append_left _ h)
          rw [hafter (s.updateFrom os.toOsState (visitService env os socks pid it)) (by
            rw [hserv, hmerge]
            simp [hs])]
          unfold SeesAt visitService
          rw [hs, hpid, seen_updateFrom_iff env os socks s pid (hdistinct s hmem) hparent' hit]
          simp
        · rw [hafter s (by
            rw [hserv, hmerge]
            simp [hs, hj]), hbefore]
          simp [hj]

end Visit

/-! ### A pass -/

section Pass
variable (env : Env) (os : Snapshot) (m : ServicesManager)

/-- Every source that a live main process holds a scanned socket for is seen by its
service in the state `m'`. -/
def AllSeenAgain (m' : ServicesManager) : Prop :=
  ∀ socks, scan env os.toOsState = some socks → ∀ k s, m.services[k]? = some s →
    ∀ i ∈ socks, (∃ p ∈ s.mainProcess, p.getStatus os.toOsState = true ∧
      Holds os.toOsState p.pid i.id) → SeenAt os.toOsState m' k i.getSource

/-- For each of these sources, the last visit of the pass that targets the service makes
it see the source. Where no visit targets it, the source is seen before the pass. -/
def LastVisitSees : Prop :=
  ∀ socks, scan env os.toOsState = some socks → ∀ k s, m.services[k]? = some s →
    ∀ i ∈ socks, (∃ p ∈ s.mainProcess, p.getStatus os.toOsState = true ∧
      Holds os.toOsState p.pid i.id) →
    (Meets (visit env os.toOsState socks)
      (fun m pid => ¬ visitTarget env os socks m pid = some k) m os.pids ∧
        SeenAt os.toOsState m k i.getSource) ∨
    ∃ pre pid post, os.pids = pre ++ pid :: post ∧
      visitTarget env os socks (walk env os.toOsState socks m pre) pid = some k ∧
      SeesAt os socks (walk env os.toOsState socks m pre) pid k i.getSource ∧
      Meets (visit env os.toOsState socks)
        (fun m pid => ¬ visitTarget env os socks m pid = some k)
        (walk env os.toOsState socks m (pre ++ [pid])) post

/-- After a pass every source that a live main process holds a scanned socket for is seen
by its service, if and only if the last visit that targets the service makes it so. -/
theorem find_sees_again_iff (hdistinct : DistinctSources m) :
    AllSeenAgain env os m (find env os.toOsState m) ↔ LastVisitSees env os m := by
  unfold AllSeenAgain LastVisitSees
  refine forall_congr' fun socks => forall_congr' fun hscan => forall_congr' fun k =>
    forall_congr' fun s => forall_congr' fun hs => forall_congr' fun i =>
    forall_congr' fun hi => forall_congr' fun _ => ?_
  have hk : k < m.services.length := (List.getElem?_eq_some_iff.mp hs).1
  rw [find_eq_walk env m hscan (List.ne_nil_of_mem hi), walk_eq_exec]
  -- The invariant of the walk: the service keeps its place, and sources have one entry each.
  exact exec_iff_last (I := fun m => k < m.services.length ∧ DistinctSources m)
    (P := fun m => SeenAt os.toOsState m k i.getSource)
    (fun m pid h => seenAt_visit_iff env os socks m pid h.1 h.2)
    (fun m pid h => ⟨Nat.lt_of_lt_of_le h.1 (length_services_visit_ge env os socks m pid),
      distinctSources_visit env os socks pid h.2⟩) m os.pids ⟨hk, hdistinct⟩

end Pass

/-! ### A restarted process -/

/-- The process 20, which replaced one that listened on the same address: the socket now
has the inode 7. -/
def restarted : Snapshot :=
  Snapshot.ofProcs
    [(20, { exe := some "/bin/httpd", stat := "20 (httpd) S 1", fd := some ["socket:[7]"] })]
    { net := fun type => if type = "tcp" then
        ["0: 00000000:0050 00000000:0000 0A 0:0 0:0 0 0 0 7"] else [] }
    (by decide) (by decide)

/-- The socket the process holds now. -/
def newSocket : Socket := { id := 7, type := "tcp", source := { port := 80 } }

/-- The manager after the restart was noticed through the handler: the new PID is known,
and the entry still has the inode 5. -/
def beforePass : ServicesManager where
  services := [{
    name := "httpd"
    uniqName := "httpd.service"
    handler := some (.systemd "/org/freedesktop/systemd1/unit/httpd.service")
    sockets := [{ newSocket with id := 5 }]
    mainProcess := [{ pid := 20, fullPath := "/bin/httpd", baseName := "httpd" }] }]

/-- The pass leaves the outdated entry in place. -/
theorem not_find_sees_again :
    ¬ AllSeenAgain {} restarted beforePass (find {} restarted.toOsState beforePass) := by
  intro h
  obtain ⟨s, hs, hseen⟩ := h [newSocket] (by decide) 0 _ rfl newSocket (by decide)
    ⟨{ pid := 20, fullPath := "/bin/httpd", baseName := "httpd" }, by decide, by decide,
      by decide⟩
  have hall : ∀ s ∈ (find {} restarted.toOsState beforePass).services,
      ¬ Seen restarted.toOsState s newSocket.getSource := by decide
  exact hall s (List.mem_of_getElem? hs) hseen

/-- The restarted process and a second one, 21, which holds the same socket. -/
def restartedTwice : Snapshot :=
  Snapshot.ofProcs
    [(20, { exe := some "/bin/httpd", stat := "20 (httpd) S 1", fd := some ["socket:[7]"] }),
      (21, { exe := some "/bin/httpd", stat := "21 (httpd) S 1", fd := some ["socket:[7]"] })]
    { net := fun type => if type = "tcp" then
        ["0: 00000000:0050 00000000:0000 0A 0:0 0:0 0 0 0 7"] else [] }
    (by decide) (by decide)

/-- The last visit is that of the second process, which is merged. -/
theorem lastVisitSees_restartedTwice : LastVisitSees {} restartedTwice beforePass := by
  intro socks hsocks k s hs i hi _
  have hscan : scan {} restartedTwice.toOsState = some [newSocket] := by decide
  obtain rfl : socks = [newSocket] := Option.some.inj (hsocks.symm.trans hscan)
  obtain rfl := List.mem_singleton.mp hi
  obtain ⟨hk, -⟩ := List.getElem?_eq_some_iff.mp hs
  obtain rfl : k = 0 := Nat.lt_one_iff.mp hk
  exact .inr ⟨[20], 21, [], by decide, by decide, ⟨_, rfl, .inl (by decide)⟩, trivial⟩

/-- The two passes, over a manager with one entry for each source. After the second pass the
service sees the source again. -/
theorem find_sees_again_iff_restarted : DistinctSources beforePass ∧
    (AllSeenAgain {} restarted beforePass (find {} restarted.toOsState beforePass)
      ↔ LastVisitSees {} restarted beforePass) ∧
    AllSeenAgain {} restartedTwice beforePass (find {} restartedTwice.toOsState beforePass) := by
  have hdistinct : DistinctSources beforePass := by
    intro s hs
    obtain rfl := List.mem_singleton.mp hs
    decide
  exact ⟨hdistinct, find_sees_again_iff {} restarted beforePass hdistinct,
    (find_sees_again_iff {} restartedTwice beforePass hdistinct).mpr lastVisitSees_restartedTwice⟩

end WatchedAgent.Proofs
