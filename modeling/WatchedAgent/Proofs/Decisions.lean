import WatchedAgent.Proofs.ManagerOps

/-!
# `WatchedAgent.Proofs.Decisions`: what a visit decides

A visit of the socket detector reads the stored services to decide what a process is, and
then changes at most one service. `decision` is the first half, and `Decision.run` the
second: `services_visit` says that a visit is one after the other. The decision is computed
from the state before the visit, so two states can be compared by what a visit decides in
them.
-/

set_option autoImplicit false

namespace WatchedAgent.Proofs

open WatchedAgent.Lib
open WatchedAgent.Model
open WatchedAgent.Model.ServicesManager
open WatchedAgent.Model.SocketDetector

/-- What a visit does with a process. A service is given by its place in the list. The
process of `merge` leaves its service under `name`. -/
inductive Decision where
  | refresh (k : Nat)
  | child (k : Nat)
  | ignore
  | merge (k : Nat) (name : String)
  | store
  deriving DecidableEq

section Decision
variable (env : Env) (os : OsState) (socks : List Socket) (m : ServicesManager) (pid : Nat)

/-- The service built for a process that holds a scanned socket, after the enhancers. -/
def candidate : Service :=
  match firstHeld os socks pid with
  | some it => enhance env os (newService env os socks (detected os pid) it)
  | none => {}

/-- The name of a service after the process was merged into it. -/
def nameAfterMerge (s : Service) : String :=
  ((s.withoutOutdated os (detected os pid)).named (detected os pid)).name

/-- What a visit decides in the state before it. -/
def decision : Decision :=
  match m.services.findIdx? (fun s => s.havePID pid) with
  | some k => .refresh k
  | none =>
      match m.services.findIdx? (fun s => s.havePID (os.ppid pid)) with
      | some k => .child k
      | none =>
          if matchList (Process.ofPid os pid) env.socketBlackList = true ∨
              firstHeld os socks pid = none then .ignore
          else
            match m.mergeTarget os (candidate env os socks pid) with
            | some k => .merge k ((m.services[k]?).elim "" (nameAfterMerge os pid))
            | none => .store

/-- What a decision does to the services. -/
def Decision.run : Decision → List Service → List Service
  | refresh k, l => l.modify k (updateKnown os socks pid)
  | child k, l => l.modify k (fun s => s.addSubProcess (Process.ofPid os pid))
  | ignore, l => l
  | merge k _, l => l.modify k (fun s => s.updateFrom os (candidate env os socks pid))
  | store, l => l ++ [candidate env os socks pid]

end Decision

section Visit
variable (env : Env) (os : OsState) (socks : List Socket) (m : ServicesManager) (pid : Nat)

/-- A PID is unknown when no service has it. -/
theorem findIdx?_havePID_eq_none {n : Nat} (h : m.havePID n = false) :
    m.services.findIdx? (fun s => s.havePID n) = none :=
  (findIdx?_eq_none_iff_any _ m.services).mpr h

/-- The first service that has a known PID. -/
theorem exists_findIdx?_havePID {n : Nat} (h : m.havePID n = true) :
    ∃ k, m.services.findIdx? (fun s => s.havePID n) = some k := by
  rw [← Option.isSome_iff_exists, List.findIdx?_isSome]
  exact h

/-- A visit carries out what it decides. -/
theorem services_visit : (visit env os socks m pid).services
    = (decision env os socks m pid).run env os socks pid m.services := by
  unfold decision
  rcases visit_cases env os socks m pid with
    ⟨hknown, hserv⟩ | ⟨hpid, hparent, hserv⟩ | ⟨hpid, hparent, hno, hsame⟩
      | ⟨hpid, hparent, hblack, it, hit, hadd⟩
  · obtain ⟨k, hk⟩ := exists_findIdx?_havePID m hknown
    rw [hserv, hk, modifyFirst_eq_modify _ _ _ hk]
    rfl
  · obtain ⟨k, hk⟩ := exists_findIdx?_havePID m hparent
    rw [findIdx?_havePID_eq_none m hpid, hk, hserv, modifyFirst_eq_modify _ _ _ hk]
    rfl
  · rw [findIdx?_havePID_eq_none m hpid, findIdx?_havePID_eq_none m hparent, hsame]
    dsimp only
    rw [if_pos hno]
    rfl
  · -- A new process: what it is merged into or stored as is the candidate.
    have hcandidate : candidate env os socks pid
        = enhance env os (newService env os socks (detected os pid) it) := by
      unfold candidate
      rw [hit]
    have hyes : ¬ (matchList (Process.ofPid os pid) env.socketBlackList = true ∨
        firstHeld os socks pid = none) := by
      rw [hblack, hit]
      simp
    rw [findIdx?_havePID_eq_none m hpid, findIdx?_havePID_eq_none m hparent, hadd,
      services_addService, ← hcandidate]
    dsimp only
    rw [if_neg hyes]
    cases m.mergeTarget os (candidate env os socks pid) <;> rfl

/-- A place a search finds is one of the list. -/
theorem lt_length_of_findIdx? {test : Service → Bool} {k : Nat}
    (h : m.services.findIdx? test = some k) : k < m.services.length :=
  (List.findIdx?_eq_some_iff_getElem.mp h).1

/-- The place `addService` merges into is one of the list. -/
theorem lt_length_of_mergeTarget {add : Service} {k : Nat} (h : m.mergeTarget os add = some k) :
    k < m.services.length := by
  unfold mergeTarget at h
  rw [Option.or_eq_some_iff] at h
  rcases h with h | ⟨-, h⟩
  · exact lt_length_of_findIdx? m h
  · exact lt_length_of_findIdx? m h

variable {env os socks m pid}

theorem findIdx?_of_decision_refresh {k : Nat} (h : decision env os socks m pid = .refresh k) :
    m.services.findIdx? (fun s => s.havePID pid) = some k := by
  unfold decision at h
  split at h
  · rename_i hk
    rw [hk, Decision.refresh.inj h]
  · split at h
    · exact absurd h (by simp)
    · split at h
      · exact absurd h (by simp)
      · split at h <;> exact absurd h (by simp)

theorem findIdx?_of_decision_child {k : Nat} (h : decision env os socks m pid = .child k) :
    m.services.findIdx? (fun s => s.havePID (os.ppid pid)) = some k := by
  unfold decision at h
  split at h
  · exact absurd h (by simp)
  · split at h
    · rename_i hk
      rw [hk, Decision.child.inj h]
    · split at h
      · exact absurd h (by simp)
      · split at h <;> exact absurd h (by simp)

/-- What is known of a process that is merged: its PID and its parent are unknown, it holds
a scanned socket, and the name is the one after the merge. -/
theorem of_decision_merge {k : Nat} {name : String}
    (h : decision env os socks m pid = .merge k name) :
    m.havePID (os.ppid pid) = false ∧ (firstHeld os socks pid).isSome = true ∧
      m.mergeTarget os (candidate env os socks pid) = some k ∧
      (m.services[k]?).elim "" (nameAfterMerge os pid) = name := by
  unfold decision at h
  split at h
  · exact absurd h (by simp)
  · split at h
    · exact absurd h (by simp)
    · rename_i hparent
      split at h
      · exact absurd h (by simp)
      · rename_i hyes
        rw [not_or] at hyes
        split at h
        · rename_i k' hk
          obtain ⟨hk', hname⟩ := Decision.merge.inj h
          refine ⟨?_, Option.isSome_iff_ne_none.mpr hyes.2, hk' ▸ hk, hk' ▸ hname⟩
          -- A known parent would have been found by the second search.
          by_contra hknown
          obtain ⟨j, hj⟩ := exists_findIdx?_havePID m (Bool.not_eq_false _ ▸ hknown)
          rw [hj] at hparent
          exact absurd hparent (by simp)
        · exact absurd h (by simp)

/-- What is known of a process that is stored: it holds a scanned socket, and no stored
service takes it. -/
theorem of_decision_store (h : decision env os socks m pid = .store) :
    (firstHeld os socks pid).isSome = true ∧
      m.mergeTarget os (candidate env os socks pid) = none := by
  unfold decision at h
  split at h
  · exact absurd h (by simp)
  · split at h
    · exact absurd h (by simp)
    · split at h
      · exact absurd h (by simp)
      · rename_i hyes
        rw [not_or] at hyes
        split at h
        · exact absurd h (by simp)
        · rename_i hnone
          exact ⟨Option.isSome_iff_ne_none.mpr hyes.2, hnone⟩

end Visit

/-! ### The candidate -/

section Candidate
variable {env : Env} {os : OsState} {socks : List Socket} {pid : Nat}

variable (env) in
/-- A candidate has the process as its only one. -/
theorem lists_candidate (h : (firstHeld os socks pid).isSome = true) :
    (candidate env os socks pid).mainProcess = [detected os pid] ∧
      (candidate env os socks pid).pids = [pid] := by
  obtain ⟨it, hit⟩ := Option.isSome_iff_exists.mp h
  unfold candidate
  rw [hit]
  dsimp only
  rw [mainProcess_enhance, mainProcess_newService, pids_enhance, pids_newService, pid_detected]
  exact ⟨rfl, rfl⟩

/-- A PID after a merge of the candidate was known, or it is that of the process. -/
theorem mem_pids_updateFrom_candidate (h : (firstHeld os socks pid).isSome = true)
    (t : Service) {n : Nat} (hn : n ∈ (t.updateFrom os (candidate env os socks pid)).pids) :
    n ∈ t.pids ∨ n = pid := by
  refine (Service.mem_pids_updateFrom os t _ hn).imp_right fun hn => ?_
  rw [(lists_candidate env h).1, List.map_singleton, List.mem_singleton, pid_detected] at hn
  exact hn

/-- A merge of the candidate keeps the running processes and adds its own. -/
theorem mem_pids_updateFrom_candidate_iff (h : (firstHeld os socks pid).isSome = true)
    (t : Service) {n : Nat} (halive : os.alive n = true) :
    n ∈ (t.updateFrom os (candidate env os socks pid)).pids ↔ n ∈ t.pids ∨ n = pid := by
  refine ⟨mem_pids_updateFrom_candidate h t, fun hn => ?_⟩
  refine Service.mem_pids_updateFrom_of_alive os t _ halive (hn.imp_right fun hn => ?_)
  rw [(lists_candidate env h).1, List.map_singleton, List.mem_singleton, pid_detected]
  exact hn

variable (env) in
/-- The main processes after a merge of the candidate, when its parent is none of them: one
outdated process leaves, the children become subprocesses, and the process comes last. -/
theorem mainProcess_updateFrom_candidate (h : (firstHeld os socks pid).isSome = true)
    (t : Service) (hpid : pid ≠ 0) (hparent : os.ppid pid ∉ t.mainProcess.map Process.pid) :
    (t.updateFrom os (candidate env os socks pid)).mainProcess
      = (t.mainProcess.eraseP (Service.isOutdated os (detected os pid))).filter
          (fun q => q.getPPID os != pid) ++ [detected os pid] := by
  have hmerge := Service.mainProcess_updateFrom os t _ (lists_candidate env h).1
    (by rw [pid_detected]; exact hpid) (by rw [getPPID_detected]; exact hparent)
  rw [pid_detected] at hmerge
  exact hmerge

end Candidate

end WatchedAgent.Proofs
