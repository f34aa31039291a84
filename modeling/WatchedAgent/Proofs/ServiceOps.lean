import Mathlib.Data.List.Nodup
import Mathlib.Data.List.Perm.Basic
import WatchedAgent.Model.Service

/-!
# `WatchedAgent.Proofs.ServiceOps`: the effect of the operations of a service

One group of lemmas for each operation that changes a service: which fields it leaves
alone, and what it does to the PIDs, the sources and the sockets that count as held.

* `mem_pids_addMainProcess`: the new PID and the old ones. A main process that becomes a
  subprocess keeps its PID known.
* `count_pids_addMainProcess_le`: no PID becomes more frequent, the new one by at most one.
* `mem_pids_updateFrom_of_alive`: a live PID is never forgotten by a merge.
* `mem_sources_updateFrom`: the sources of a merge are the union of both.
-/

set_option autoImplicit false

namespace WatchedAgent.Model.Service

open WatchedAgent.Lib

variable (os : OsState)

/-! ### `setSocket` -/

section SetSocket
variable (s : Service) (sock : Socket)

/-- `setSocket` writes the unique key and the sockets only. -/
theorem setSocket_eq : s.setSocket sock
    = { s with
          uniqName := (s.setSocket sock).uniqName
          sockets := (s.setSocket sock).sockets } := by
  unfold setSocket
  dsimp only
  split_ifs <;> rfl

@[simp]
theorem mainProcess_setSocket : (s.setSocket sock).mainProcess = s.mainProcess := by
  rw [setSocket_eq]

@[simp]
theorem subProcess_setSocket : (s.setSocket sock).subProcess = s.subProcess := by
  rw [setSocket_eq]

@[simp]
theorem haveSocket_setSocket (id : Nat) :
    (s.setSocket sock).haveSocket os id = s.haveSocket os id := by
  simp [haveSocket]

/-- A source that is already there changes nothing, and a new one is added at the end. -/
theorem sockets_setSocket : (s.setSocket sock).sockets
    = if sock.getSource ∈ s.sources then s.sockets else s.sockets ++ [sock] := by
  -- The unique key is written first, so the test runs on a service with the same sockets.
  have key : ∀ s' : Service, s'.sockets = s.sockets →
      (if s'.sockets.any (fun i => i.getSource == sock.getSource) then s'
        else { s' with sockets := s'.sockets ++ [sock] }).sockets
        = if sock.getSource ∈ s.sources then s.sockets else s.sockets ++ [sock] := by
    intro s' hs'
    simp only [sources, List.mem_map, List.any_eq_true, beq_iff_eq, hs']
    split
    · exact hs'
    · rfl
  unfold setSocket
  dsimp only
  split
  · exact key _ rfl
  · exact key _ rfl

/-- The sources afterwards are the old ones and the new one. -/
theorem mem_sources_setSocket {source : String} :
    source ∈ (s.setSocket sock).sources ↔ source ∈ s.sources ∨ source = sock.getSource := by
  unfold sources
  rw [sockets_setSocket]
  by_cases hmem : sock.getSource ∈ s.sources
  · rw [if_pos hmem]
    constructor
    · exact .inl
    · rintro (h | rfl)
      · exact h
      · exact hmem
  · rw [if_neg hmem, List.map_append, List.mem_append, List.map_singleton,
      List.mem_singleton]

/-- `setSocket` never gives a source two entries. -/
theorem nodup_sources_setSocket (h : s.sources.Nodup) : (s.setSocket sock).sources.Nodup := by
  unfold sources
  rw [sockets_setSocket]
  by_cases hmem : sock.getSource ∈ s.sources
  · rw [if_pos hmem]
    exact h
  · rw [if_neg hmem, List.map_append, List.map_singleton]
    exact h.append (List.nodup_singleton _) (List.disjoint_singleton.mpr hmem)

/-- The unique key afterwards: the one of the first socket where it was empty. -/
theorem uniqName_setSocket : (s.setSocket sock).uniqName
    = if s.sockets = [] ∧ s.uniqName = "" then uniqKeyOf sock.getSource else s.uniqName := by
  unfold setSocket
  dsimp only
  split
  · split <;> rfl
  · split <;> rfl

end SetSocket

/-! ### `addSubProcess` and `adoptChildren` -/

section AddSubProcess
variable (s : Service) (p : Process)

/-- `addSubProcess` writes the subprocesses only. -/
theorem addSubProcess_eq :
    s.addSubProcess p = { s with subProcess := (s.addSubProcess p).subProcess } := by
  unfold addSubProcess
  split <;> rfl

/-- A list of `addSubProcess` calls writes the subprocesses only. -/
theorem foldl_addSubProcess_eq (ps : List Process) :
    ps.foldl addSubProcess s = { s with subProcess := (ps.foldl addSubProcess s).subProcess } := by
  induction ps generalizing s with
  | nil => rfl
  | cons p ps ih =>
      rw [List.foldl_cons, ih, addSubProcess_eq]

/-- A list of `addSubProcess` calls does not depend on the name. -/
theorem foldl_addSubProcess_name (ps : List Process) (name : String) :
    ps.foldl addSubProcess { s with name } = { ps.foldl addSubProcess s with name } := by
  induction ps generalizing s with
  | nil => rfl
  | cons p ps ih =>
      have hstep : addSubProcess { s with name } p = { s.addSubProcess p with name } := by
        unfold addSubProcess
        split <;> rfl
      rw [List.foldl_cons, List.foldl_cons, hstep, ih]

/-- The PIDs of the subprocesses afterwards are the old ones and the new one. -/
theorem mem_subPids_addSubProcess {n : Nat} :
    n ∈ (s.addSubProcess p).subProcess.map Process.pid
      ↔ n ∈ s.subProcess.map Process.pid ∨ n = p.pid := by
  unfold addSubProcess
  split
  · rename_i h
    -- A PID that is there is not added again.
    have hmem : p.pid ∈ s.subProcess.map Process.pid := by simpa using h
    constructor
    · exact .inl
    · rintro (h | rfl)
      · exact h
      · exact hmem
  · simp

@[simp]
theorem mainProcess_addSubProcess : (s.addSubProcess p).mainProcess = s.mainProcess := by
  rw [addSubProcess_eq]

@[simp]
theorem sockets_addSubProcess : (s.addSubProcess p).sockets = s.sockets := by
  rw [addSubProcess_eq]

/-- The PIDs afterwards are the old ones and the new one. -/
theorem mem_pids_addSubProcess {n : Nat} :
    n ∈ (s.addSubProcess p).pids ↔ n ∈ s.pids ∨ n = p.pid := by
  unfold pids
  rw [List.mem_append, mem_subPids_addSubProcess, mainProcess_addSubProcess, List.mem_append,
    or_assoc]

/-- The PIDs of the subprocesses after a list of `addSubProcess` calls. -/
theorem mem_subPids_foldl_addSubProcess {n : Nat} (ps : List Process) :
    n ∈ (ps.foldl addSubProcess s).subProcess.map Process.pid
      ↔ n ∈ s.subProcess.map Process.pid ∨ n ∈ ps.map Process.pid := by
  induction ps generalizing s with
  | nil => simp
  | cons p ps ih =>
      rw [List.foldl_cons, ih, mem_subPids_addSubProcess, List.map_cons, List.mem_cons,
        or_assoc]

/-- No subprocess PID becomes more frequent than by the calls for it. -/
theorem count_subPids_foldl_addSubProcess_le (n : Nat) (ps : List Process) :
    ((ps.foldl addSubProcess s).subProcess.map Process.pid).count n
      ≤ (s.subProcess.map Process.pid).count n + (ps.map Process.pid).count n := by
  induction ps generalizing s with
  | nil => simp
  | cons p ps ih =>
      have hrest := ih (s.addSubProcess p)
      -- One call adds its PID once, or not at all.
      have hfirst : ((s.addSubProcess p).subProcess.map Process.pid).count n
          ≤ (s.subProcess.map Process.pid).count n + [p.pid].count n := by
        unfold addSubProcess
        split
        · omega
        · simp [List.count_append]
      rw [List.foldl_cons, List.map_cons]
      rw [← List.singleton_append, List.count_append]
      omega

/-- No PID becomes more frequent, but the new one, which does by one at most. -/
theorem count_pids_addSubProcess_le (n : Nat) :
    (s.addSubProcess p).pids.count n ≤ s.pids.count n + [p.pid].count n := by
  have hmain := mainProcess_addSubProcess s p
  have hsub := count_subPids_foldl_addSubProcess_le s n [p]
  unfold pids
  rw [List.count_append, List.count_append, hmain]
  simp only [List.foldl_cons, List.foldl_nil, List.map_singleton] at hsub
  omega

end AddSubProcess

section AdoptChildren
variable (s : Service) (pid : Nat)

/-- `adoptChildren` writes the two process lists only. -/
theorem adoptChildren_eq : s.adoptChildren os pid
    = { s with
          mainProcess := s.mainProcess.filter (fun i => i.getPPID os != pid)
          subProcess := (s.adoptChildren os pid).subProcess } := by
  unfold adoptChildren
  dsimp only
  rw [foldl_addSubProcess_eq]

/-- The main processes split into the children and the others. -/
theorem filter_getPPID_perm :
    (s.mainProcess.filter (fun i => i.getPPID os == pid)
      ++ s.mainProcess.filter (fun i => i.getPPID os != pid)).Perm s.mainProcess := by
  simpa [bne] using List.filter_append_perm (fun i => i.getPPID os == pid) s.mainProcess

/-- A child keeps its PID known. -/
@[simp]
theorem mem_pids_adoptChildren {n : Nat} : n ∈ (s.adoptChildren os pid).pids ↔ n ∈ s.pids := by
  -- The children move from one list to the other, and the PIDs of both together stay.
  have hperm := ((filter_getPPID_perm os s pid).map Process.pid).mem_iff (a := n)
  rw [List.map_append, List.mem_append] at hperm
  unfold pids
  rw [List.mem_append, List.mem_append, ← hperm]
  unfold adoptChildren
  dsimp only
  rw [mem_subPids_foldl_addSubProcess]
  tauto

/-- No PID becomes more frequent. -/
theorem count_pids_adoptChildren_le (n : Nat) :
    (s.adoptChildren os pid).pids.count n ≤ s.pids.count n := by
  have hperm := ((filter_getPPID_perm os s pid).map Process.pid).count_eq n
  rw [List.map_append, List.count_append] at hperm
  have hsub := count_subPids_foldl_addSubProcess_le s n
    (s.mainProcess.filter (fun i => i.getPPID os == pid))
  unfold pids
  rw [List.count_append, List.count_append]
  unfold adoptChildren
  dsimp only
  omega

end AdoptChildren

/-! ### `addMainProcess` -/

/-- The service after the first step of `addMainProcess`: an unnamed service without main
processes takes the name of the process. -/
def named (s : Service) (p : Process) : Service :=
  if s.mainProcess = [] ∧ s.name = "" then { s with name := p.baseName } else s

section AddMainProcess
variable (s : Service) (p : Process)

/-- `named` writes the name only. -/
theorem named_eq : s.named p = { s with name := (s.named p).name } := by
  unfold named
  split <;> rfl

/-- A named service, or one with a main process, keeps its name. -/
theorem named_of_ne (h : s.mainProcess ≠ [] ∨ s.name ≠ "") : s.named p = s := by
  unfold named
  rw [if_neg]
  rintro ⟨hmain, hname⟩
  exact h.elim (fun h => h hmain) (fun h => h hname)

/-- To adopt children does not depend on the name. -/
theorem adoptChildren_named (pid : Nat) : (s.named p).adoptChildren os pid
    = { s.adoptChildren os pid with name := (s.named p).name } := by
  have hmain : (s.named p).mainProcess = s.mainProcess := by rw [named_eq]
  unfold adoptChildren
  dsimp only
  rw [hmain]
  conv_lhs => rw [named_eq]
  rw [foldl_addSubProcess_name]

/-- What `addMainProcess` does. The process becomes a subprocess when its parent is a main
process. Otherwise it becomes a main process and its children become subprocesses. A
process of a configuration file becomes a main process. -/
theorem addMainProcess_cases :
    (p.pid ≠ 0 ∧ p.getPPID os ∈ s.mainProcess.map Process.pid ∧
      s.addMainProcess os p = s.addSubProcess p) ∨
    (p.pid ≠ 0 ∧ p.getPPID os ∉ s.mainProcess.map Process.pid ∧
      s.addMainProcess os p
        = { s.adoptChildren os p.pid with
              name := (s.named p).name
              mainProcess := s.mainProcess.filter (fun i => i.getPPID os != p.pid) ++ [p] }) ∨
    (p.pid = 0 ∧
      s.addMainProcess os p
        = { s with name := (s.named p).name, mainProcess := s.mainProcess ++ [p] }) := by
  -- The first step is `named`, and it leaves the process lists alone.
  have hunfold : s.addMainProcess os p
      = if p.pid ≠ 0 then
          if (s.named p).mainProcess.any (fun i => i.pid == p.getPPID os) then
            (s.named p).addSubProcess p
          else
            { (s.named p).adoptChildren os p.pid with
                mainProcess := ((s.named p).adoptChildren os p.pid).mainProcess ++ [p] }
        else { s.named p with mainProcess := (s.named p).mainProcess ++ [p] } := rfl
  have hmain : (s.named p).mainProcess = s.mainProcess := by rw [named_eq]
  have hany : (s.named p).mainProcess.any (fun i => i.pid == p.getPPID os) = true
      ↔ p.getPPID os ∈ s.mainProcess.map Process.pid := by
    rw [hmain]
    simp
  rw [hunfold]
  by_cases hpid : p.pid = 0
  · refine .inr (.inr ⟨hpid, ?_⟩)
    rw [if_neg (by simpa using hpid), hmain, named_eq]
  · rw [if_pos hpid]
    by_cases hparent : p.getPPID os ∈ s.mainProcess.map Process.pid
    · -- A service with a main process is not named anew.
      refine .inl ⟨hpid, hparent, ?_⟩
      have hne : s.mainProcess ≠ [] := by
        intro hnil
        simp [hnil] at hparent
      rw [if_pos (hany.mpr hparent), named_of_ne s p (.inl hne)]
    · refine .inr (.inl ⟨hpid, hparent, ?_⟩)
      rw [if_neg (fun h => hparent (hany.mp h))]
      rw [adoptChildren_named]
      rfl

/-- `addMainProcess` writes the name and the process lists only. -/
theorem addMainProcess_eq : s.addMainProcess os p
    = { s with
          name := (s.addMainProcess os p).name
          mainProcess := (s.addMainProcess os p).mainProcess
          subProcess := (s.addMainProcess os p).subProcess } := by
  rcases addMainProcess_cases os s p with ⟨-, -, h⟩ | ⟨-, -, h⟩ | ⟨-, h⟩
  · rw [h, addSubProcess_eq]
  · rw [h, adoptChildren_eq]
  · rw [h]

@[simp]
theorem type_addMainProcess : (s.addMainProcess os p).type = s.type := by
  rw [addMainProcess_eq]

@[simp]
theorem uniqName_addMainProcess : (s.addMainProcess os p).uniqName = s.uniqName := by
  rw [addMainProcess_eq]

@[simp]
theorem handler_addMainProcess : (s.addMainProcess os p).handler = s.handler := by
  rw [addMainProcess_eq]

@[simp]
theorem sockets_addMainProcess : (s.addMainProcess os p).sockets = s.sockets := by
  rw [addMainProcess_eq]

/-- The name afterwards is that of `named`. -/
theorem name_addMainProcess : (s.addMainProcess os p).name = (s.named p).name := by
  rcases addMainProcess_cases os s p with ⟨-, hparent, h⟩ | ⟨-, -, h⟩ | ⟨-, h⟩
  · have hne : s.mainProcess ≠ [] := by
      intro hnil
      simp [hnil] at hparent
    rw [h, addSubProcess_eq, named_of_ne s p (.inl hne)]
  · rw [h]
  · rw [h]

/-- The PIDs afterwards are the old ones and the new one. -/
theorem mem_pids_addMainProcess {n : Nat} :
    n ∈ (s.addMainProcess os p).pids ↔ n ∈ s.pids ∨ n = p.pid := by
  rcases addMainProcess_cases os s p with ⟨-, -, h⟩ | ⟨-, -, h⟩ | ⟨-, h⟩
  · rw [h, mem_pids_addSubProcess]
  · have hadopt := mem_pids_adoptChildren os s p.pid (n := n)
    rw [h]
    unfold pids at hadopt ⊢
    rw [adoptChildren_eq] at hadopt ⊢
    simp only [List.mem_append, List.map_append, List.map_singleton, List.mem_singleton]
      at hadopt ⊢
    tauto
  · rw [h]
    unfold pids
    simp only [List.mem_append, List.map_append, List.map_singleton, List.mem_singleton]
    tauto

/-- No PID becomes more frequent, but the new one, which does by one at most. -/
theorem count_pids_addMainProcess_le (n : Nat) :
    (s.addMainProcess os p).pids.count n ≤ s.pids.count n + [p.pid].count n := by
  rcases addMainProcess_cases os s p with ⟨-, -, h⟩ | ⟨-, -, h⟩ | ⟨-, h⟩
  · rw [h]
    exact count_pids_addSubProcess_le s p n
  · have hadopt := count_pids_adoptChildren_le os s p.pid n
    rw [h]
    unfold pids at hadopt ⊢
    rw [adoptChildren_eq] at hadopt ⊢
    simp only [List.count_append, List.map_append, List.map_singleton] at hadopt ⊢
    omega
  · rw [h]
    unfold pids
    simp only [List.count_append, List.map_append, List.map_singleton]
    omega

/-- What counts as held after a process without a recorded parent was added: what a main
process that is not its child holds, and what the process holds. -/
theorem haveSocket_addMainProcess (hpid : p.pid ≠ 0)
    (hparent : p.getPPID os ∉ s.mainProcess.map Process.pid) {id : Nat} :
    (s.addMainProcess os p).haveSocket os id = true ↔
      (∃ q ∈ s.mainProcess, q.getPPID os ≠ p.pid ∧ q.getStatus os = true ∧
        q.haveSocket id = true) ∨ (p.getStatus os = true ∧ p.haveSocket id = true) := by
  rw [haveSocket_iff]
  rcases addMainProcess_cases os s p with ⟨-, hparent', -⟩ | ⟨-, -, h⟩ | ⟨hzero, -⟩
  · exact absurd hparent' hparent
  · -- A running main process stays one, unless it is a child of `p`.
    rw [h]
    simp only [List.mem_append, List.mem_filter, List.mem_singleton, bne_iff_ne, or_and_right,
      exists_or, exists_eq_left, and_assoc]
  · exact absurd hzero hpid

end AddMainProcess

/-! ### `updateMainProcess` -/

section UpdateMainProcess
variable (s : Service) (p : Process)

/-- The service after the erasing loop of `updateMainProcess`. -/
def withoutOutdated (s : Service) (p : Process) : Service :=
  { s with mainProcess := s.mainProcess.eraseP (isOutdated os p) }

theorem updateMainProcess_eq :
    s.updateMainProcess os p = (s.withoutOutdated os p).addMainProcess os p := rfl

/-- The erasing loop keeps every running process. -/
theorem mem_mainProcess_withoutOutdated {q : Process} (hq : q.getStatus os = true) :
    q ∈ (s.withoutOutdated os p).mainProcess ↔ q ∈ s.mainProcess :=
  List.mem_eraseP_of_neg (by simp [isOutdated, hq])

/-- The erasing loop adds no PID. -/
theorem pids_withoutOutdated_sublist : (s.withoutOutdated os p).pids.Sublist s.pids :=
  List.Sublist.append (List.eraseP_sublist.map _) (List.Sublist.refl _)

/-- The erasing loop adds no PID of a main process. -/
theorem not_mem_mainPids_withoutOutdated {n : Nat} (h : n ∉ s.mainProcess.map Process.pid) :
    n ∉ (s.withoutOutdated os p).mainProcess.map Process.pid :=
  fun hmem => h ((List.eraseP_sublist.map _).subset hmem)

/-- The erasing loop keeps every live PID. -/
theorem mem_pids_withoutOutdated_of_alive {n : Nat} (hn : os.alive n = true) :
    n ∈ (s.withoutOutdated os p).pids ↔ n ∈ s.pids := by
  constructor
  · exact fun h => (pids_withoutOutdated_sublist os s p).subset h
  · intro h
    rcases List.mem_append.mp h with hmain | hsub
    · -- Only a process that does not run is erased.
      obtain ⟨q, hq, rfl⟩ := List.mem_map.mp hmain
      exact List.mem_append_left _ (List.mem_map_of_mem
        ((mem_mainProcess_withoutOutdated os s p hn).mpr hq))
    · exact List.mem_append_right _ hsub

@[simp]
theorem type_updateMainProcess : (s.updateMainProcess os p).type = s.type := by
  rw [updateMainProcess_eq, type_addMainProcess]
  rfl

@[simp]
theorem uniqName_updateMainProcess : (s.updateMainProcess os p).uniqName = s.uniqName := by
  rw [updateMainProcess_eq, uniqName_addMainProcess]
  rfl

@[simp]
theorem handler_updateMainProcess : (s.updateMainProcess os p).handler = s.handler := by
  rw [updateMainProcess_eq, handler_addMainProcess]
  rfl

@[simp]
theorem sockets_updateMainProcess : (s.updateMainProcess os p).sockets = s.sockets := by
  rw [updateMainProcess_eq, sockets_addMainProcess]
  rfl

/-- The PIDs afterwards are old ones and the new one. -/
theorem mem_pids_updateMainProcess {n : Nat} (h : n ∈ (s.updateMainProcess os p).pids) :
    n ∈ s.pids ∨ n = p.pid := by
  rw [updateMainProcess_eq, mem_pids_addMainProcess] at h
  exact h.imp_left fun h => (pids_withoutOutdated_sublist os s p).subset h

/-- The new PID is known afterwards, and so is every live PID that was. -/
theorem mem_pids_updateMainProcess_of_alive {n : Nat}
    (h : (os.alive n = true ∧ n ∈ s.pids) ∨ n = p.pid) :
    n ∈ (s.updateMainProcess os p).pids := by
  rw [updateMainProcess_eq, mem_pids_addMainProcess]
  exact h.imp_left fun h => (mem_pids_withoutOutdated_of_alive os s p h.1).mpr h.2

/-- No PID becomes more frequent, but the new one, which does by one at most. -/
theorem count_pids_updateMainProcess_le (n : Nat) :
    (s.updateMainProcess os p).pids.count n ≤ s.pids.count n + [p.pid].count n := by
  have hadd := count_pids_addMainProcess_le os (s.withoutOutdated os p) p n
  have herase := (pids_withoutOutdated_sublist os s p).count_le n
  rw [updateMainProcess_eq]
  omega

end UpdateMainProcess

/-! ### `updateFrom` -/

section ReplaceSocket
variable (s : Service) (sock : Socket)

/-- `replaceSocket` writes the unique key and the sockets only. -/
theorem replaceSocket_eq : s.replaceSocket sock
    = { s with
          uniqName := (s.replaceSocket sock).uniqName
          sockets := (s.replaceSocket sock).sockets } := by
  unfold replaceSocket
  rw [setSocket_eq]

/-- The sources afterwards are the old ones and the new one. -/
theorem mem_sources_replaceSocket {source : String} :
    source ∈ (s.replaceSocket sock).sources ↔ source ∈ s.sources ∨ source = sock.getSource := by
  unfold replaceSocket
  rw [mem_sources_setSocket]
  -- For another source the erasing step does not matter.
  refine or_congr_left' fun hne => ?_
  unfold sources
  simp only [List.mem_map]
  constructor
  · rintro ⟨i, hi, rfl⟩
    exact ⟨i, List.mem_of_mem_eraseP hi, rfl⟩
  · rintro ⟨i, hi, rfl⟩
    refine ⟨i, (List.mem_eraseP_of_neg ?_).mpr hi, rfl⟩
    simpa using hne

/-- Where sources have one entry each, the entry with the source is replaced. -/
theorem sockets_replaceSocket (h : s.sources.Nodup) : (s.replaceSocket sock).sockets
    = s.sockets.eraseP (fun j => j.getSource == sock.getSource) ++ [sock] := by
  -- After the erasing step no entry has the source, so `setSocket` adds the new one.
  have hgone : sock.getSource
      ∉ (s.sockets.eraseP (fun j => j.getSource == sock.getSource)).map Socket.getSource := by
    rw [show (fun j : Socket => j.getSource == sock.getSource)
        = (fun a => a == sock.getSource) ∘ Socket.getSource from rfl, ← List.eraseP_map,
      ← List.erase_eq_eraseP']
    exact h.not_mem_erase
  unfold replaceSocket
  rw [sockets_setSocket]
  exact if_neg hgone

/-- `replaceSocket` never gives a source two entries. -/
theorem nodup_sources_replaceSocket (h : s.sources.Nodup) :
    (s.replaceSocket sock).sources.Nodup := by
  refine nodup_sources_setSocket _ sock ?_
  exact h.sublist (List.eraseP_sublist.map _)

end ReplaceSocket

section UpdateFrom
variable (s src : Service)

/-- The service after the process loop of `updateFrom`. -/
def withProcesses (s src : Service) : Service := src.mainProcess.foldl (updateMainProcess os) s

/-- A list of `replaceSocket` calls writes the unique key and the sockets only. -/
theorem foldl_replaceSocket_eq (socks : List Socket) : socks.foldl replaceSocket s
    = { s with
          uniqName := (socks.foldl replaceSocket s).uniqName
          sockets := (socks.foldl replaceSocket s).sockets } := by
  induction socks generalizing s with
  | nil => rfl
  | cons sock socks ih =>
      rw [List.foldl_cons, ih, replaceSocket_eq]

/-- The parts of `updateFrom`: the process loop, then the socket loop. -/
theorem updateFrom_eq : s.updateFrom os src
    = { s.withProcesses os src with
          uniqName := (src.sockets.foldl replaceSocket (s.withProcesses os src)).uniqName
          sockets := (src.sockets.foldl replaceSocket (s.withProcesses os src)).sockets
          collectorsCfg := (s.updateFrom os src).collectorsCfg } := by
  unfold updateFrom
  dsimp only
  rw [foldl_replaceSocket_eq]
  rfl

/-- A field that `updateMainProcess` leaves alone is left alone by the process loop. -/
theorem withProcesses_of_eq {α : Type} (g : Service → α)
    (h : ∀ s p, g (updateMainProcess os s p) = g s) : g (s.withProcesses os src) = g s := by
  unfold withProcesses
  induction src.mainProcess generalizing s with
  | nil => rfl
  | cons p ps ih => rw [List.foldl_cons, ih, h]

@[simp]
theorem type_updateFrom : (s.updateFrom os src).type = s.type := by
  rw [updateFrom_eq]
  exact withProcesses_of_eq os s src _ (type_updateMainProcess os)

@[simp]
theorem handler_updateFrom : (s.updateFrom os src).handler = s.handler := by
  rw [updateFrom_eq]
  exact withProcesses_of_eq os s src _ (handler_updateMainProcess os)

/-- The process loop leaves the sockets alone. -/
@[simp]
theorem sockets_withProcesses : (s.withProcesses os src).sockets = s.sockets :=
  withProcesses_of_eq os s src _ (sockets_updateMainProcess os)

/-- The process loop leaves the unique key alone. -/
@[simp]
theorem uniqName_withProcesses : (s.withProcesses os src).uniqName = s.uniqName :=
  withProcesses_of_eq os s src _ (uniqName_updateMainProcess os)

/-- The process lists of a merge are those after the process loop. -/
@[simp]
theorem pids_updateFrom : (s.updateFrom os src).pids = (s.withProcesses os src).pids := by
  rw [updateFrom_eq]
  rfl

/-- The sources of a merge are the union of both. -/
theorem mem_sources_updateFrom {source : String} :
    source ∈ (s.updateFrom os src).sources ↔ source ∈ s.sources ∨ source ∈ src.sources := by
  -- Along the socket loop the sources grow by those of the other service.
  have key : ∀ (socks : List Socket) (s : Service),
      source ∈ (socks.foldl replaceSocket s).sources
        ↔ source ∈ s.sources ∨ source ∈ socks.map Socket.getSource := by
    intro socks
    induction socks with
    | nil => simp
    | cons sock socks ih =>
        intro s
        rw [List.foldl_cons, ih, mem_sources_replaceSocket, List.map_cons, List.mem_cons,
          or_assoc]
  have hsources : (s.updateFrom os src).sources
      = (src.sockets.foldl replaceSocket (s.withProcesses os src)).sources := by
    rw [updateFrom_eq]
    rfl
  rw [hsources, key]
  unfold sources
  rw [sockets_withProcesses]

/-- A merge keeps a name. -/
theorem name_updateFrom_of_ne (h : s.name ≠ "") : (s.updateFrom os src).name = s.name := by
  have hname : (s.updateFrom os src).name = (s.withProcesses os src).name := by
    rw [updateFrom_eq]
  -- The name stays along the process loop, because it is never empty on the way.
  have hfold : ∀ (ps : List Process) (t : Service), t.name ≠ "" →
      (ps.foldl (updateMainProcess os) t).name = t.name := by
    intro ps
    induction ps with
    | nil => intros; rfl
    | cons p ps ih =>
        intro t ht
        have hstep : (updateMainProcess os t p).name = t.name := by
          have hkept : (t.withoutOutdated os p).name ≠ "" := ht
          rw [updateMainProcess_eq, name_addMainProcess, named_of_ne _ p (.inr hkept)]
          rfl
        rw [List.foldl_cons, ih _ (by rw [hstep]; exact ht), hstep]
  rw [hname]
  exact hfold src.mainProcess s h

/-- A merge with a service without sockets keeps the sockets and the unique key. -/
theorem updateFrom_of_no_socket (h : src.sockets = []) :
    (s.updateFrom os src).sockets = s.sockets ∧ (s.updateFrom os src).uniqName = s.uniqName := by
  rw [updateFrom_eq, h]
  exact ⟨sockets_withProcesses os s src, uniqName_withProcesses os s src⟩

/-- The sockets of a merge: those of the service, replaced one after the other. -/
theorem sockets_updateFrom : (s.updateFrom os src).sockets
    = (src.sockets.foldl replaceSocket (s.withProcesses os src)).sockets := by
  rw [updateFrom_eq]

/-- A list of `replaceSocket` calls never gives a source two entries. -/
theorem nodup_sources_foldl_replaceSocket (socks : List Socket) (h : s.sources.Nodup) :
    (socks.foldl replaceSocket s).sources.Nodup := by
  induction socks generalizing s with
  | nil => exact h
  | cons sock socks ih => exact ih _ (nodup_sources_replaceSocket s sock h)

/-- A merge never gives a source two entries. -/
theorem nodup_sources_updateFrom (h : s.sources.Nodup) : (s.updateFrom os src).sources.Nodup := by
  unfold sources
  rw [sockets_updateFrom]
  refine nodup_sources_foldl_replaceSocket _ src.sockets ?_
  unfold sources
  rw [sockets_withProcesses]
  exact h

/-- A merge leaves an entry alone whose source the other service does not have. -/
theorem mem_sockets_foldl_replaceSocket (socks : List Socket) (h : s.sources.Nodup)
    {e : Socket} (hsource : e.getSource ∉ socks.map Socket.getSource) :
    e ∈ (socks.foldl replaceSocket s).sockets ↔ e ∈ s.sockets := by
  induction socks generalizing s with
  | nil => exact Iff.rfl
  | cons sock socks ih =>
      rw [List.map_cons, List.mem_cons, not_or] at hsource
      obtain ⟨hne, hsource⟩ := hsource
      have hsock : e ≠ sock := by
        intro heq
        exact hne (heq ▸ rfl)
      rw [List.foldl_cons, ih _ (nodup_sources_replaceSocket s sock h) hsource,
        sockets_replaceSocket s sock h, List.mem_append, List.mem_singleton,
        List.mem_eraseP_of_neg (by simpa using hne), or_iff_left hsock]

/-- A source of the other service has its entry from there after a merge. -/
theorem exists_mem_sockets_foldl_replaceSocket (socks : List Socket) (h : s.sources.Nodup)
    {source : String} (hsource : source ∈ socks.map Socket.getSource) :
    ∃ e ∈ (socks.foldl replaceSocket s).sockets, e.getSource = source ∧ e ∈ socks := by
  induction socks generalizing s with
  | nil => simp at hsource
  | cons sock socks ih =>
      have hnodup := nodup_sources_replaceSocket s sock h
      rw [List.foldl_cons]
      by_cases hlater : source ∈ socks.map Socket.getSource
      · obtain ⟨e, he, heq, hmem⟩ := ih _ hnodup hlater
        exact ⟨e, he, heq, List.mem_cons_of_mem sock hmem⟩
      · -- The entry is the one of the first socket, and the later calls leave it alone.
        have hfirst : source = sock.getSource := by
          rw [List.map_cons, List.mem_cons] at hsource
          exact hsource.resolve_right hlater
        refine ⟨sock, ?_, hfirst.symm, List.mem_cons_self⟩
        rw [mem_sockets_foldl_replaceSocket _ socks hnodup (hfirst ▸ hlater),
          sockets_replaceSocket s sock h]
        exact List.mem_append_right _ (List.mem_singleton_self sock)

section OneProcess
variable {p : Process} (hmain : src.mainProcess = [p])
include hmain

/-- The process loop of a merge with a service of one process. -/
theorem withProcesses_of_singleton :
    s.withProcesses os src = (s.withoutOutdated os p).addMainProcess os p := by
  unfold withProcesses
  rw [hmain]
  rfl

/-- The name after a merge with a service of one process. -/
theorem name_updateFrom : (s.updateFrom os src).name = ((s.withoutOutdated os p).named p).name := by
  rw [updateFrom_eq]
  show (s.withProcesses os src).name = _
  rw [withProcesses_of_singleton os s src hmain, name_addMainProcess]

/-- The main processes after a merge with a service of one process, whose parent is not
recorded. -/
theorem mainProcess_updateFrom (hpid : p.pid ≠ 0)
    (hparent : p.getPPID os ∉ s.mainProcess.map Process.pid) :
    (s.updateFrom os src).mainProcess
      = (s.mainProcess.eraseP (isOutdated os p)).filter (fun q => q.getPPID os != p.pid)
        ++ [p] := by
  have hparent' := not_mem_mainPids_withoutOutdated os s p hparent
  rw [updateFrom_eq]
  show (s.withProcesses os src).mainProcess = _
  rw [withProcesses_of_singleton os s src hmain]
  rcases addMainProcess_cases os (s.withoutOutdated os p) p with
    ⟨-, h, -⟩ | ⟨-, -, h⟩ | ⟨hzero, -⟩
  · exact absurd h hparent'
  · rw [h]
    rfl
  · exact absurd hzero hpid

/-- A merge with a running process records no PID that is not running as a subprocess. -/
theorem mem_subPids_updateFrom (hpid : p.pid ≠ 0) (halive : os.alive p.pid = true) {n : Nat}
    (hn : os.alive n = false) : n ∈ (s.updateFrom os src).subProcess.map Process.pid
      ↔ n ∈ s.subProcess.map Process.pid := by
  have hne : n ≠ p.pid := by
    intro heq
    rw [heq, halive] at hn
    exact absurd hn (by simp)
  rw [updateFrom_eq]
  show n ∈ (s.withProcesses os src).subProcess.map Process.pid ↔ _
  rw [withProcesses_of_singleton os s src hmain]
  rcases addMainProcess_cases os (s.withoutOutdated os p) p with
    ⟨-, -, h⟩ | ⟨-, -, h⟩ | ⟨hzero, -⟩
  · rw [h, mem_subPids_addSubProcess]
    exact or_iff_left hne
  · rw [h]
    show n ∈ ((s.withoutOutdated os p).adoptChildren os p.pid).subProcess.map Process.pid ↔ _
    unfold adoptChildren
    dsimp only
    rw [mem_subPids_foldl_addSubProcess]
    refine or_iff_left fun hchild => ?_
    -- A process that does not run has parent PID 0.
    obtain ⟨q, hq, rfl⟩ := List.mem_map.mp hchild
    have hppid : q.getPPID os = p.pid := by simpa using (List.mem_filter.mp hq).2
    have hzero : q.getPPID os = 0 := os.ppid_of_not_alive q.pid hn
    exact hpid (hppid.symm.trans hzero)
  · exact absurd hzero hpid

/-- What counts as held after a merge with a service of one process, whose parent is not
recorded. -/
theorem haveSocket_updateFrom (hpid : p.pid ≠ 0)
    (hparent : p.getPPID os ∉ s.mainProcess.map Process.pid) {id : Nat} :
    (s.updateFrom os src).haveSocket os id = true ↔
      (∃ q ∈ s.mainProcess, q.getPPID os ≠ p.pid ∧ q.getStatus os = true ∧
        q.haveSocket id = true) ∨ (p.getStatus os = true ∧ p.haveSocket id = true) := by
  have hmerge : (s.updateFrom os src).haveSocket os id
      = ((s.withoutOutdated os p).addMainProcess os p).haveSocket os id := by
    rw [updateFrom_eq, withProcesses_of_singleton os s src hmain]
    rfl
  have hparent' := not_mem_mainPids_withoutOutdated os s p hparent
  rw [hmerge, haveSocket_addMainProcess os _ p hpid hparent']
  refine or_congr_left ?_
  constructor
  · intro h
    obtain ⟨q, hq, hchild, halive, hid⟩ := h
    exact ⟨q, (mem_mainProcess_withoutOutdated os s p halive).mp hq, hchild, halive, hid⟩
  · intro h
    obtain ⟨q, hq, hchild, halive, hid⟩ := h
    exact ⟨q, (mem_mainProcess_withoutOutdated os s p halive).mpr hq, hchild, halive, hid⟩

end OneProcess

/-- A PID of a merge was known to one of the two. -/
theorem mem_pids_updateFrom {n : Nat} (h : n ∈ (s.updateFrom os src).pids) :
    n ∈ s.pids ∨ n ∈ src.mainProcess.map Process.pid := by
  rw [pids_updateFrom] at h
  unfold withProcesses at h
  generalize src.mainProcess = ps at h ⊢
  induction ps generalizing s with
  | nil => exact .inl h
  | cons p ps ih =>
      rw [List.foldl_cons] at h
      rcases ih _ h with h | h
      · rcases mem_pids_updateMainProcess os s p h with h | rfl
        · exact .inl h
        · exact .inr (by simp)
      · exact .inr (by simp [h])

/-- A merge forgets no live PID: not of the service, and not of the other's main
processes. -/
theorem mem_pids_updateFrom_of_alive {n : Nat} (hn : os.alive n = true)
    (h : n ∈ s.pids ∨ n ∈ src.mainProcess.map Process.pid) :
    n ∈ (s.updateFrom os src).pids := by
  rw [pids_updateFrom]
  unfold withProcesses
  generalize src.mainProcess = ps at h ⊢
  induction ps generalizing s with
  | nil => simpa using h
  | cons p ps ih =>
      rw [List.foldl_cons]
      -- What the first process leaves is what the rest of the loop starts from.
      refine ih _ ?_
      rw [List.map_cons, List.mem_cons, ← or_assoc] at h
      refine h.imp_left fun h => mem_pids_updateMainProcess_of_alive os s p ?_
      exact h.imp_left fun h => ⟨hn, h⟩

/-- No PID becomes more frequent than by the main processes of the other service. -/
theorem count_pids_updateFrom_le (n : Nat) :
    (s.updateFrom os src).pids.count n
      ≤ s.pids.count n + (src.mainProcess.map Process.pid).count n := by
  rw [pids_updateFrom]
  unfold withProcesses
  induction src.mainProcess generalizing s with
  | nil => simp
  | cons p ps ih =>
      have hrest := ih (updateMainProcess os s p)
      have hfirst := count_pids_updateMainProcess_le os s p n
      rw [List.foldl_cons, List.map_cons, ← List.singleton_append, List.count_append]
      omega

end UpdateFrom

end WatchedAgent.Model.Service
