import WatchedAgent.Lib.Forest
import WatchedAgent.Proofs.ServiceOps

/-!
# `WatchedAgent.Proofs.Roots`: the split into main and subprocesses

`addMainProcess` is called for the processes of a service one after the other. The PIDs of
the main processes are the roots that `Lib.Forest` keeps (`mainPids_step`).

* `adding_keeps`: no process is lost, and no main process is the parent of another one.
* `split_iff`: the main processes are those without a parent in the service, in any two
  orders, if and only if grandparents come last in both.
-/

set_option autoImplicit false

namespace WatchedAgent.Proofs.Roots

open WatchedAgent.Lib
open WatchedAgent.Lib.Forest
open WatchedAgent.Model

/-- A call of `addMainProcess`, at the moment `os`. -/
structure Addition where
  os : OsState
  process : Process

namespace Addition

/-- The PID that is added. -/
def pid (a : Addition) : Nat := a.process.pid

end Addition

/-- The service after a call. -/
def step (s : Service) (a : Addition) : Service := s.addMainProcess a.os a.process

/-- The service after some calls. -/
def added (s : Service) (calls : List Addition) : Service := calls.foldl step s

/-- The PIDs of the main processes. -/
def mainPids (s : Service) : List Nat := s.mainProcess.map Process.pid

/-- The processes of some calls: distinct PIDs, none of them 0, and the system shows the same
parents at every call. -/
structure Family (parent : Nat → Nat) (calls : List Addition) : Prop where
  nodup : (calls.map Addition.pid).Nodup
  pid_ne_zero : ∀ a ∈ calls, a.pid ≠ 0
  ppid : ∀ a ∈ calls, ∀ b ∈ calls, b.process.getPPID a.os = parent b.pid

section Step
variable {parent : Nat → Nat} {s : Service} {a : Addition}

/-- A call does to the main processes what an arrival does to the roots of a forest. -/
theorem mainPids_step (hpid : a.pid ≠ 0) (hself : a.process.getPPID a.os = parent a.pid)
    (hmain : ∀ q ∈ s.mainProcess, q.getPPID a.os = parent q.pid) :
    mainPids (step s a) = Forest.insert parent (mainPids s) a.pid := by
  have hchildren : (s.mainProcess.filter (fun i => i.getPPID a.os != a.process.pid)).map Process.pid
      = (mainPids s).filter (fun n => parent n ≠ a.pid) := by
    unfold mainPids
    rw [List.filter_map]
    refine congrArg (List.map Process.pid) (List.filter_congr fun q hq => ?_)
    rw [Function.comp_apply, hmain q hq]
    show (parent q.pid != a.pid) = _
    simp only [bne, beq_eq_decide, decide_not]
  show (s.addMainProcess a.os a.process).mainProcess.map Process.pid = _
  unfold Forest.insert
  rcases Service.addMainProcess_cases a.os s a.process with
    ⟨-, hparent, h⟩ | ⟨-, hparent, h⟩ | ⟨hzero, -⟩
  · have hroot : parent a.pid ∈ mainPids s := hself ▸ hparent
    rw [h, Service.mainProcess_addSubProcess, if_pos hroot]
    rfl
  · have hroot : parent a.pid ∉ mainPids s := hself ▸ hparent
    rw [h, if_neg hroot, List.map_append, hchildren]
    rfl
  · exact absurd hzero hpid

/-- A new PID joins those of the service. -/
theorem pids_step (hnodup : s.pids.Nodup) (hnew : a.pid ∉ s.pids) :
    (step s a).pids.Nodup ∧ (step s a).pids.Perm (s.pids ++ [a.pid]) := by
  have hcount : ∀ n, (step s a).pids.count n ≤ s.pids.count n + [a.pid].count n :=
    fun n => Service.count_pids_addMainProcess_le a.os s a.process n
  have hmem : ∀ n, n ∈ (step s a).pids ↔ n ∈ s.pids ∨ n = a.pid :=
    fun n => Service.mem_pids_addMainProcess a.os s a.process
  have hwhole : (s.pids ++ [a.pid]).Nodup :=
    hnodup.append (List.nodup_singleton _) (List.disjoint_singleton.mpr hnew)
  have hnodup' : (step s a).pids.Nodup := by
    refine List.nodup_iff_count_le_one.mpr fun n => ?_
    have hle := List.nodup_iff_count_le_one.mp hwhole n
    rw [List.count_append] at hle
    exact le_trans (hcount n) hle
  refine ⟨hnodup', (List.perm_ext_iff_of_nodup hnodup' hwhole).mpr fun n => ?_⟩
  rw [hmem, List.mem_append, List.mem_singleton]

end Step

/-- What holds after some calls: the PIDs are those of the calls, and the main processes are
the roots. -/
structure Inv (parent : Nat → Nat) (calls : List Addition) (s : Service) : Prop where
  pids : s.pids.Perm (calls.map Addition.pid)
  main : mainPids s = insertAll parent (calls.map Addition.pid)
  ppid : ∀ q ∈ s.mainProcess, ∃ b ∈ calls, q = b.process

section Runs
variable {parent : Nat → Nat} {calls : List Addition} {s : Service}

theorem inv_start (h : s.pids = []) : Inv parent [] s := by
  have hmain : s.mainProcess = [] := by
    have hpids := List.append_eq_nil_iff.mp h
    exact List.map_eq_nil_iff.mp hpids.1
  refine ⟨?_, ?_, ?_⟩
  · rw [h]
    rfl
  · show s.mainProcess.map Process.pid = []
    rw [hmain]
    rfl
  · intro q hq
    rw [hmain] at hq
    exact absurd hq List.not_mem_nil

/-- A main process after a call was one before, or is the one added. -/
theorem mem_mainProcess_step {a : Addition} {q : Process} (hq : q ∈ (step s a).mainProcess) :
    q ∈ s.mainProcess ∨ q = a.process := by
  have hq' : q ∈ (s.addMainProcess a.os a.process).mainProcess := hq
  rcases Service.addMainProcess_cases a.os s a.process with ⟨-, -, h⟩ | ⟨-, -, h⟩ | ⟨-, h⟩
  · rw [h, Service.mainProcess_addSubProcess] at hq'
    exact .inl hq'
  · rw [h] at hq'
    rcases List.mem_append.mp hq' with hq' | hq'
    · exact .inl (List.mem_of_mem_filter hq')
    · exact .inr (List.mem_singleton.mp hq')
  · rw [h] at hq'
    rcases List.mem_append.mp hq' with hq' | hq'
    · exact .inl hq'
    · exact .inr (List.mem_singleton.mp hq')

theorem inv_step {a : Addition} (hfamily : Family parent (calls ++ [a]))
    (h : Inv parent calls s) : Inv parent (calls ++ [a]) (step s a) := by
  have ha : a ∈ calls ++ [a] := by simp
  have hnodup := hfamily.nodup
  rw [List.map_append, List.map_singleton] at hnodup
  obtain ⟨hcalls, -, hnew⟩ := List.nodup_append.mp hnodup
  have hpids := pids_step (h.pids.nodup_iff.mpr hcalls) fun hmem =>
    hnew _ (h.pids.mem_iff.mp hmem) _ (List.mem_singleton_self _) rfl
  refine ⟨?_, ?_, ?_⟩
  · rw [List.map_append, List.map_singleton]
    exact hpids.2.trans (h.pids.append_right _)
  · rw [List.map_append, List.map_singleton, insertAll_append, ← h.main]
    refine mainPids_step (hfamily.pid_ne_zero a ha) (hfamily.ppid a ha a ha) fun q hq => ?_
    obtain ⟨b, hb, rfl⟩ := h.ppid q hq
    exact hfamily.ppid a ha b (List.mem_append_left _ hb)
  · intro q hq
    rcases mem_mainProcess_step hq with hq | rfl
    · obtain ⟨b, hb, rfl⟩ := h.ppid q hq
      exact ⟨b, List.mem_append_left _ hb, rfl⟩
    · exact ⟨a, ha, rfl⟩

theorem Family.of_append {rest : List Addition} (h : Family parent (calls ++ rest)) :
    Family parent calls := by
  have hmem : ∀ a ∈ calls, a ∈ calls ++ rest := fun a ha => List.mem_append_left _ ha
  have hnodup := h.nodup
  rw [List.map_append] at hnodup
  exact ⟨(List.nodup_append.mp hnodup).1, fun a ha => h.pid_ne_zero a (hmem a ha),
    fun a ha b hb => h.ppid a (hmem a ha) b (hmem b hb)⟩

/-- The invariant holds after all calls. -/
theorem inv_added (hs : s.pids = []) (hfamily : Family parent calls) :
    Inv parent calls (added s calls) := by
  induction calls using List.reverseRecOn with
  | nil => exact inv_start hs
  | append_singleton calls a ih =>
      rw [added, List.foldl_append]
      exact inv_step hfamily (ih hfamily.of_append)

end Runs

/-! ### No process is lost -/

/-- After every call the PIDs of both lists together are those added so far, each once, and no
main process is the direct child of another main process. -/
theorem adding_keeps (parent : Nat → Nat) (s : Service) (hs : s.pids = []) (calls : List Addition)
    (hfamily : Family parent calls) (done rest : List Addition) (hcalls : calls = done ++ rest) :
    (added s done).pids.Nodup ∧ (added s done).pids.Perm (done.map Addition.pid) ∧
      ∀ q ∈ (added s done).mainProcess, ∀ r ∈ (added s done).mainProcess, r.pid ≠ q.pid →
        parent q.pid ≠ r.pid := by
  have hdone : Family parent done := (hcalls ▸ hfamily).of_append
  have hinv := inv_added hs hdone
  have hapart : Apart parent (insertAll parent (done.map Addition.pid)) := apart_insertAll _
  rw [← hinv.main] at hapart
  refine ⟨hinv.pids.nodup_iff.mpr hdone.nodup, hinv.pids, fun q hq r hr hne => ?_⟩
  exact hapart _ (List.mem_map_of_mem hq) _ (List.mem_map_of_mem hr) hne

/-- Three processes: 10, its child 11, and 12, the child of 11. -/
def chain : OsState :=
  OsState.ofProcs [(10, { stat := "10 (sh) S 1" }), (11, { stat := "11 (sh) S 10" }),
    (12, { stat := "12 (sh) S 11" })]

/-- The parents of the chain. -/
def chainParent (n : Nat) : Nat := if n = 12 then 11 else if n = 11 then 10 else 1

/-- The chain is added in some order. -/
def additions (order : List Nat) : List Addition := order.map (fun n => ⟨chain, { pid := n }⟩)

theorem family_chain {order : List Nat} (hnodup : order.Nodup)
    (hmem : ∀ n ∈ order, n ∈ [10, 11, 12]) : Family chainParent (additions order) := by
  have hpids : (additions order).map Addition.pid = order := by
    unfold additions
    rw [List.map_map]
    exact List.map_id order
  have hppid : ∀ n ∈ [10, 11, 12], n ≠ 0 ∧ chain.ppid n = chainParent n := by decide
  refine ⟨?_, ?_, ?_⟩
  · rw [hpids]
    exact hnodup
  · intro a ha
    obtain ⟨n, hn, rfl⟩ := List.mem_map.mp ha
    exact (hppid n (hmem n hn)).1
  · intro a ha b hb
    obtain ⟨n, -, rfl⟩ := List.mem_map.mp ha
    obtain ⟨k, hk, rfl⟩ := List.mem_map.mp hb
    exact (hppid k (hmem k hk)).2

theorem adding_keeps_chain : (added {} (additions [12, 11])).pids.Perm [12, 11] :=
  (adding_keeps chainParent {} rfl (additions [12, 11, 10]) (family_chain (by decide) (by decide))
    (additions [12, 11]) (additions [10]) rfl).2.1

/-! ### The order of the calls -/

/-- The main processes of the two services are the same: the processes whose parent was not
added. -/
def SplitAlike (parent : Nat → Nat) (pids : List Nat) (s₁ s₂ : Service) : Prop :=
  (∀ n, n ∈ mainPids s₁ ↔ n ∈ mainPids s₂) ∧ ∀ n, n ∈ mainPids s₁ ↔ n ∈ pids ∧ parent n ∉ pids

/-- For the same processes in two orders, the main processes are the same and are those without
a parent in the service, if and only if in both orders each process comes after its children
and grandchildren wherever it has both. -/
theorem split_iff (parent : Nat → Nat) (s₁ s₂ : Service) (hs₁ : s₁.pids = []) (hs₂ : s₂.pids = [])
    (calls₁ calls₂ : List Addition) (h₁ : Family parent calls₁) (h₂ : Family parent calls₂)
    (hacyclic : Acyclic parent (calls₁.map Addition.pid))
    (hsame : (calls₁.map Addition.process).Perm (calls₂.map Addition.process)) :
    SplitAlike parent (calls₁.map Addition.pid) (added s₁ calls₁) (added s₂ calls₂) ↔
      GrandparentsLast parent (calls₁.map Addition.pid) ∧
        GrandparentsLast parent (calls₂.map Addition.pid) := by
  have hperm : (calls₁.map Addition.pid).Perm (calls₂.map Addition.pid) := by
    have hmap := hsame.map Process.pid
    rw [List.map_map, List.map_map] at hmap
    exact hmap
  have hmem : ∀ n, n ∈ calls₂.map Addition.pid ↔ n ∈ calls₁.map Addition.pid :=
    fun n => hperm.mem_iff.symm
  have hacyclic₂ : Acyclic parent (calls₂.map Addition.pid) := by
    intro k hk hcycle
    simp only [hmem] at hk hcycle
    exact hacyclic k hk hcycle
  rw [← mem_insertAll_iff h₁.nodup hacyclic, ← mem_insertAll_iff h₂.nodup hacyclic₂,
    ← (inv_added hs₁ h₁).main, ← (inv_added hs₂ h₂).main]
  simp only [hmem]
  constructor
  · rintro ⟨hequal, hroots⟩
    exact ⟨hroots, fun n => (hequal n).symm.trans (hroots n)⟩
  · rintro ⟨hroots₁, hroots₂⟩
    exact ⟨fun n => (hroots₁ n).trans (hroots₂ n).symm, hroots₁⟩

theorem acyclic_chain : Acyclic chainParent [12, 11, 10] :=
  acyclic_of_lt (fun n => n) (by decide)

theorem split_chain_upwards : SplitAlike chainParent [12, 11, 10]
    (added {} (additions [12, 11, 10])) (added {} (additions [11, 12, 10])) :=
  (split_iff chainParent {} {} rfl rfl (additions [12, 11, 10]) (additions [11, 12, 10])
    (family_chain (by decide) (by decide)) (family_chain (by decide) (by decide)) acyclic_chain
    (by decide)).mpr (by decide)

/-- From the root down, the grandchild becomes a main process too. -/
theorem not_split_chain_downwards : ¬ ∀ calls₁ calls₂ : List Addition,
    Family chainParent calls₁ → Family chainParent calls₂ →
      Acyclic chainParent (calls₁.map Addition.pid) →
      (calls₁.map Addition.process).Perm (calls₂.map Addition.process) →
      SplitAlike chainParent (calls₁.map Addition.pid) (added {} calls₁) (added {} calls₂) := by
  intro h
  have hsplit := h (additions [12, 11, 10]) (additions [10, 11, 12])
    (family_chain (by decide) (by decide)) (family_chain (by decide) (by decide)) acyclic_chain
    (by decide)
  have hgrandchild : 12 ∈ mainPids (added {} (additions [10, 11, 12])) := by decide
  have hroot : 12 ∉ mainPids (added {} (additions [12, 11, 10])) := by decide
  exact hroot ((hsplit.1 12).mpr hgrandchild)

end WatchedAgent.Proofs.Roots
