import WatchedAgent.Proofs.ServiceOps

/-!
# `WatchedAgent.Proofs.Merging`: what a merge does to the two services

`updateFrom` copies the main processes of another service one after the other, each in the
place of an outdated one, and then its sockets. The lists change in every turn of the loop:
an entry is erased, a child moves to the subprocesses, a process is added.

* `accounted_updateFrom`: counted with multiplicity, every process of the two services is in
  the merged one, or was erased as outdated by a main process of its own, or was refused as
  a subprocess whose PID is listed already.
* `holds_foldl`: a copied process stays known, unless a later one makes it outdated.
* `mergesSockets`: the sockets are the union by source.
* `merges_updateFrom`: all of this together.
-/

set_option autoImplicit false

namespace WatchedAgent.Proofs

open WatchedAgent.Lib
open WatchedAgent.Model
open WatchedAgent.Model.Service

namespace Merging

/-- The PIDs of the subprocesses. -/
def subPids (s : Service) : List Nat := s.subProcess.map Process.pid

/-- The processes of `s`, with `added`, are those of `s'`, those that are `gone` and those
that were refused. A process is gone because it does not run and has the path of a process
of `causes`, one for each. A refused one has the PID of a subprocess. -/
structure Accounted (os : OsState) (s : Service) (added : List Process) (s' : Service)
    (gone refused causes : List Process) : Prop where
  perm : (s.mainProcess ++ s.subProcess ++ added).Perm
    (s'.mainProcess ++ s'.subProcess ++ gone ++ refused)
  sublist : causes.Sublist added
  outdated : List.Forall₂ (fun p g => isOutdated os p g = true) causes gone
  listed : ∀ r ∈ refused, r.pid ∈ subPids s'

/-! ### The subprocesses stay -/

variable (os : OsState)

theorem prefix_addSubProcess (s : Service) (p : Process) :
    s.subProcess <+: (s.addSubProcess p).subProcess := by
  rw [addSubProcess]
  split
  · exact List.prefix_refl _
  · exact List.prefix_append _ _

theorem prefix_foldl_addSubProcess (ps : List Process) (s : Service) :
    s.subProcess <+: (ps.foldl addSubProcess s).subProcess := by
  induction ps generalizing s with
  | nil => exact List.prefix_refl _
  | cons p ps ih => exact (prefix_addSubProcess s p).trans (ih _)

theorem prefix_addMainProcess (s : Service) (p : Process) :
    s.subProcess <+: (s.addMainProcess os p).subProcess := by
  rcases addMainProcess_cases os s p with ⟨-, -, h⟩ | ⟨-, -, h⟩ | ⟨-, h⟩
  · rw [h]
    exact prefix_addSubProcess s p
  · rw [h]
    exact prefix_foldl_addSubProcess _ s
  · exact h ▸ List.prefix_refl _

/-- The process loop of a merge. -/
def copyAll (ps : List Process) (s : Service) : Service := ps.foldl (updateMainProcess os) s

theorem prefix_copyAll (ps : List Process) (s : Service) :
    s.subProcess <+: (copyAll os ps s).subProcess := by
  induction ps generalizing s with
  | nil => exact List.prefix_refl _
  | cons p ps ih => exact (prefix_addMainProcess os (s.withoutOutdated os p) p).trans (ih _)

/-- A PID of a subprocess stays one where the list is extended. -/
theorem subPids_subset {s s' : Service} (h : s.subProcess <+: s'.subProcess) {n : Nat}
    (hn : n ∈ subPids s) : n ∈ subPids s' :=
  (h.map Process.pid).subset hn

/-! ### Every process is accounted for -/

/-- A refused process has the PID of a subprocess. -/
theorem exists_refused_addSubProcess (s : Service) (p : Process) : ∃ refused,
    (s.subProcess ++ [p]).Perm ((s.addSubProcess p).subProcess ++ refused) ∧
      ∀ r ∈ refused, r.pid ∈ subPids (s.addSubProcess p) := by
  rw [addSubProcess]
  split
  · rename_i hlisted
    exact ⟨[p], List.Perm.refl _, by simpa [subPids] using hlisted⟩
  · exact ⟨[], by simp, by simp⟩

theorem exists_refused_foldl (ps : List Process) (s : Service) : ∃ refused,
    (s.subProcess ++ ps).Perm ((ps.foldl addSubProcess s).subProcess ++ refused) ∧
      ∀ r ∈ refused, r.pid ∈ subPids (ps.foldl addSubProcess s) := by
  induction ps generalizing s with
  | nil => exact ⟨[], by simp, by simp⟩
  | cons p ps ih =>
      obtain ⟨first, hperm, hfirst⟩ := exists_refused_addSubProcess s p
      obtain ⟨rest, hperm', hrest⟩ := ih (s.addSubProcess p)
      refine ⟨first ++ rest, ?_, ?_⟩
      · rw [List.perm_iff_count] at hperm hperm' ⊢
        intro a
        have h1 := hperm a
        have h2 := hperm' a
        simp only [List.count_append, List.count_cons, List.count_nil, List.foldl_cons]
          at h1 h2 ⊢
        omega
      · intro r hr
        rcases List.mem_append.mp hr with hr | hr
        · exact subPids_subset (prefix_foldl_addSubProcess ps _) (hfirst r hr)
        · exact hrest r hr

/-- `addMainProcess` erases nothing. -/
theorem exists_refused_addMainProcess (s : Service) (p : Process) : ∃ refused,
    (s.mainProcess ++ s.subProcess ++ [p]).Perm ((s.addMainProcess os p).mainProcess
      ++ (s.addMainProcess os p).subProcess ++ refused) ∧
      ∀ r ∈ refused, r.pid ∈ subPids (s.addMainProcess os p) := by
  rcases addMainProcess_cases os s p with ⟨-, -, h⟩ | ⟨-, -, h⟩ | ⟨-, h⟩
  · obtain ⟨refused, hperm, hrefused⟩ := exists_refused_addSubProcess s p
    refine ⟨refused, ?_, by rwa [h]⟩
    rw [h, mainProcess_addSubProcess, List.append_assoc, List.append_assoc]
    exact hperm.append_left _
  · -- The children move, and the process takes a place behind the others.
    obtain ⟨refused, hperm, hrefused⟩ := exists_refused_foldl
      (s.mainProcess.filter (fun i => i.getPPID os == p.pid)) s
    have hsplit := filter_getPPID_perm os s p.pid
    refine ⟨refused, ?_, by rw [h]; exact hrefused⟩
    rw [h]
    show (s.mainProcess ++ s.subProcess ++ [p]).Perm
      (s.mainProcess.filter (fun i => i.getPPID os != p.pid) ++ [p]
        ++ ((s.mainProcess.filter (fun i => i.getPPID os == p.pid)).foldl addSubProcess s).subProcess
        ++ refused)
    rw [List.perm_iff_count] at hperm hsplit ⊢
    intro a
    have h1 := hperm a
    have h2 := hsplit a
    simp only [List.count_append] at h1 h2 ⊢
    omega
  · refine ⟨[], ?_, by simp⟩
    rw [h, List.append_nil]
    rw [List.perm_iff_count]
    intro a
    simp only [List.count_append]
    omega

/-- One turn of the process loop: one process is gone at most. -/
theorem accounted_updateMainProcess (s : Service) (p : Process) : ∃ gone refused causes,
    Accounted os s [p] (s.updateMainProcess os p) gone refused causes := by
  obtain ⟨refused, hperm, hrefused⟩ := exists_refused_addMainProcess os (s.withoutOutdated os p) p
  rw [← updateMainProcess_eq] at hperm hrefused
  by_cases hany : ∃ g ∈ s.mainProcess, isOutdated os p g = true
  · obtain ⟨g, hg, hout⟩ := hany
    obtain ⟨first, pre, post, -, hfirst, hsplit, herase⟩ := List.exists_of_eraseP hg hout
    have hmain : (s.withoutOutdated os p).mainProcess = pre ++ post := herase
    refine ⟨[first], refused, [p], ?_, List.Sublist.refl _, .cons hfirst .nil, hrefused⟩
    rw [hmain] at hperm
    rw [hsplit]
    show ((pre ++ first :: post) ++ s.subProcess ++ [p]).Perm _
    have hsub : (s.withoutOutdated os p).subProcess = s.subProcess := rfl
    rw [hsub] at hperm
    rw [List.perm_iff_count] at hperm ⊢
    intro a
    have h1 := hperm a
    simp only [List.count_append, List.count_cons, List.count_nil] at h1 ⊢
    omega
  · have hmain : (s.withoutOutdated os p).mainProcess = s.mainProcess :=
      List.eraseP_of_forall_not fun g hg hout => hany ⟨g, hg, hout⟩
    refine ⟨[], refused, [], ?_, List.nil_sublist _, .nil, hrefused⟩
    rw [hmain] at hperm
    rw [List.append_nil]
    exact hperm

/-- The whole process loop. -/
theorem accounted_copyAll (ps : List Process) (s : Service) : ∃ gone refused causes,
    Accounted os s ps (copyAll os ps s) gone refused causes := by
  induction ps generalizing s with
  | nil => exact ⟨[], [], [], by simp [copyAll], List.Sublist.refl _, .nil, by simp⟩
  | cons p ps ih =>
      obtain ⟨gone, refused, causes, hfirst⟩ := accounted_updateMainProcess os s p
      obtain ⟨gone', refused', causes', hrest⟩ := ih (s.updateMainProcess os p)
      refine ⟨gone ++ gone', refused ++ refused', causes ++ causes', ?_, ?_, ?_, ?_⟩
      · have hperm := List.perm_iff_count.mp hfirst.perm
        have hperm' := List.perm_iff_count.mp hrest.perm
        rw [List.perm_iff_count]
        intro a
        have h1 := hperm a
        have h2 := hperm' a
        simp only [List.count_append, List.count_cons, List.count_nil] at h1 h2 ⊢
        show _ = (copyAll os ps (s.updateMainProcess os p)).mainProcess.count a
          + (copyAll os ps (s.updateMainProcess os p)).subProcess.count a + _ + _
        omega
      · exact List.Sublist.append hfirst.sublist hrest.sublist
      · exact List.rel_append hfirst.outdated hrest.outdated
      · intro r hr
        rcases List.mem_append.mp hr with hr | hr
        · exact subPids_subset (prefix_copyAll os ps _) (hfirst.listed r hr)
        · exact hrest.listed r hr

/-! ### What the merged service knows -/

/-- The process is a main process, or its PID is that of a subprocess. -/
def Holds (s : Service) (p : Process) : Prop := p ∈ s.mainProcess ∨ p.pid ∈ subPids s

theorem Holds.mem_pids {s : Service} {p : Process} (h : Holds s p) : p.pid ∈ s.pids := by
  rcases h with h | h
  · exact List.mem_append_left _ (List.mem_map_of_mem h)
  · exact List.mem_append_right _ h

/-- A process that is added is held. -/
theorem holds_addMainProcess_self (s : Service) (p : Process) :
    Holds (s.addMainProcess os p) p := by
  rcases addMainProcess_cases os s p with ⟨-, -, h⟩ | ⟨-, -, h⟩ | ⟨-, h⟩
  · rw [h]
    exact .inr ((mem_subPids_addSubProcess s p).mpr (.inr rfl))
  · rw [h]
    exact .inl (by simp)
  · rw [h]
    exact .inl (by simp)

/-- To add another process does not lose one: a child is known as a subprocess. -/
theorem holds_addMainProcess {s : Service} {p : Process} (q : Process) (hp : Holds s p) :
    Holds (s.addMainProcess os q) p := by
  rcases hp with hp | hp
  · rcases addMainProcess_cases os s q with ⟨-, -, h⟩ | ⟨-, -, h⟩ | ⟨-, h⟩
    · rw [h, Holds, mainProcess_addSubProcess]
      exact .inl hp
    · rw [h]
      by_cases hchild : p.getPPID os = q.pid
      · refine .inr ((mem_subPids_foldl_addSubProcess s _).mpr (.inr ?_))
        exact List.mem_map_of_mem (List.mem_filter.mpr ⟨hp, by simpa using hchild⟩)
      · exact .inl (List.mem_append_left _ (List.mem_filter.mpr ⟨hp, by simpa using hchild⟩))
    · rw [h]
      exact .inl (List.mem_append_left _ hp)
  · exact .inr (subPids_subset (prefix_addMainProcess os s q) hp)

/-- A turn of the process loop loses an outdated process only. -/
theorem holds_updateMainProcess {s : Service} {p : Process} (q : Process) (hp : Holds s p)
    (hout : isOutdated os q p = false) : Holds (s.updateMainProcess os q) p := by
  refine holds_addMainProcess os q (hp.imp_left fun hmem => ?_)
  exact (List.mem_eraseP_of_neg (by simp [hout])).mpr hmem

theorem holds_copyAll (ps : List Process) {s : Service} {p : Process} (hp : Holds s p)
    (hout : ∀ q ∈ ps, isOutdated os q p = false) : Holds (copyAll os ps s) p := by
  induction ps generalizing s with
  | nil => exact hp
  | cons q ps ih =>
      refine ih (holds_updateMainProcess os q hp (hout q List.mem_cons_self)) ?_
      exact fun q' hq' => hout q' (List.mem_cons_of_mem q hq')

/-- A process of the other service is known afterwards, unless one that comes later in its
list makes it outdated. -/
theorem known_or_outdated (s src : Service) {pre post : List Process} {p : Process}
    (h : src.mainProcess = pre ++ p :: post) :
    p.pid ∈ (s.updateFrom os src).pids ∨ ∃ q ∈ post, isOutdated os q p = true := by
  by_cases hout : ∃ q ∈ post, isOutdated os q p = true
  · exact .inr hout
  · have hkept : ∀ q ∈ post, isOutdated os q p = false := by
      intro q hq
      by_contra hne
      exact hout ⟨q, hq, by simpa using hne⟩
    -- After its own turn the process is held, and no later turn makes it outdated.
    have hheld := holds_copyAll os post
      (holds_addMainProcess_self os ((copyAll os pre s).withoutOutdated os p) p) hkept
    left
    rw [pids_updateFrom, withProcesses, h, List.foldl_append, List.foldl_cons]
    exact hheld.mem_pids

/-! ### The sockets -/

/-- The sources are the union of both, each with one entry. Every entry of the other service
is there, and every entry of the service whose source the other does not have. -/
structure MergesSockets (s src s' : Service) : Prop where
  nodup : s'.sources.Nodup
  union : ∀ source, source ∈ s'.sources ↔ source ∈ s.sources ∨ source ∈ src.sources
  copied : ∀ e ∈ src.sockets, e ∈ s'.sockets
  kept : ∀ e ∈ s.sockets, e.getSource ∉ src.sources → e ∈ s'.sockets

theorem mergesSockets (s src : Service) (hs : s.sources.Nodup) (hsrc : src.sources.Nodup) :
    MergesSockets s src (s.updateFrom os src) := by
  have hloop : (s.withProcesses os src).sources.Nodup := by
    rw [sources, sockets_withProcesses]
    exact hs
  refine ⟨nodup_sources_updateFrom os s src hs, fun _ => mem_sources_updateFrom os s src, ?_, ?_⟩
  · intro e he
    obtain ⟨e', he', heq, hmem⟩ := exists_mem_sockets_foldl_replaceSocket
      (s.withProcesses os src) src.sockets hloop (List.mem_map_of_mem he)
    -- The other service has one entry for the source.
    obtain rfl := List.inj_on_of_nodup_map hsrc hmem he heq
    rw [sockets_updateFrom]
    exact he'
  · intro e he hsource
    rw [sockets_updateFrom,
      mem_sockets_foldl_replaceSocket (s.withProcesses os src) src.sockets hloop hsource,
      sockets_withProcesses]
    exact he

/-! ### The merge -/

/-- A live PID of the service stays known. -/
def KeepsLive (s s' : Service) : Prop := ∀ n ∈ s.pids, os.alive n = true → n ∈ s'.pids

/-- Every entry that leaves is accounted for, and no subprocess leaves. -/
def LosesOutdated (s src s' : Service) : Prop :=
  s.subProcess <+: s'.subProcess ∧
    ∃ gone refused causes, Accounted os s src.mainProcess s' gone refused causes

/-- A merge as a union: in particular, every PID of a main process of the other service is
known afterwards. -/
structure IsUnion (s src s' : Service) : Prop where
  sockets : MergesSockets s src s'
  known : ∀ p ∈ src.mainProcess, p.pid ∈ s'.pids
  live : KeepsLive os s s'
  loses : LosesOutdated os s src s'

/-- What a merge does: a main process of the other service that does not run is not known
where a later one has its path. -/
structure Merges (s src s' : Service) : Prop where
  sockets : MergesSockets s src s'
  known : ∀ pre p post, src.mainProcess = pre ++ p :: post →
    p.pid ∈ s'.pids ∨ (p.getStatus os = false ∧ ∃ q ∈ post, q.fullPath = p.fullPath)
  live : KeepsLive os s s'
  loses : LosesOutdated os s src s'

/-- A merge of two services with distinct sources, at any moment of the system. -/
theorem merges_updateFrom (s src : Service) (hs : s.sources.Nodup) (hsrc : src.sources.Nodup) :
    Merges os s src (s.updateFrom os src) where
  sockets := mergesSockets os s src hs hsrc
  known := by
    intro pre p post heq
    refine (known_or_outdated os s src heq).imp_right ?_
    rintro ⟨q, hq, hout⟩
    rw [isOutdated, Bool.and_eq_true, Bool.not_eq_true', beq_iff_eq] at hout
    exact ⟨hout.1, q, hq, hout.2.symm⟩
  live := fun n hn halive => mem_pids_updateFrom_of_alive os s src halive (.inl hn)
  loses := by
    obtain ⟨gone, refused, causes, h⟩ := accounted_copyAll os src.mainProcess s
    have hsub : (s.updateFrom os src).subProcess = (copyAll os src.mainProcess s).subProcess := by
      rw [updateFrom_eq]
      rfl
    have hmain : (s.updateFrom os src).mainProcess
        = (copyAll os src.mainProcess s).mainProcess := by
      rw [updateFrom_eq]
      rfl
    refine ⟨hsub ▸ prefix_copyAll os src.mainProcess s, gone, refused, causes, ?_⟩
    exact {
      perm := by rw [hmain, hsub]; exact h.perm
      sublist := h.sublist
      outdated := h.outdated
      listed := by rw [subPids, hsub]; exact h.listed }

/-! ### Two processes of one path -/

/-- The system with process 20 of `/bin/foo`. -/
def fooOs : OsState := OsState.ofProcs [(20, { exe := some "/bin/foo" })]

/-- A service that lists the process 10, which has ended, and its successor 20. -/
def foo : Service where
  name := "foo"
  sockets := [{ id := 7, type := "tcp", source := { port := 80 } }]
  mainProcess := [{ pid := 10, fullPath := "/bin/foo" }, { pid := 20, fullPath := "/bin/foo" }]

/-- A service with an older entry for the socket. -/
def olderFoo : Service where
  name := "foo"
  sockets := [{ id := 5, type := "tcp", source := { port := 80 } }]

/-- The two services are merged. -/
theorem merges_foo : Merges fooOs olderFoo foo (olderFoo.updateFrom fooOs foo) :=
  merges_updateFrom fooOs olderFoo foo (by decide) (by decide)

/-- The process 10 is not known afterwards: the turn of process 20 finds it outdated. -/
theorem not_isUnion_foo : ¬ IsUnion fooOs olderFoo foo (olderFoo.updateFrom fooOs foo) := by
  intro h
  have hknown := h.known { pid := 10, fullPath := "/bin/foo" } (by decide)
  exact absurd hknown (by decide)

end Merging

end WatchedAgent.Proofs
