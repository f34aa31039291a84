import Mathlib.Data.Finset.Dedup
import WatchedAgent.Proofs.Decisions

/-!
# `WatchedAgent.Proofs.Growth`: a service during a pass

How a service changes during a pass of `socketDetector::find` that carries out a plan. The
plan gives each process its `Role`: the service it belongs to, and what its visit does
there. `view` is what is looked at of a service: the name, the set of sources and the set of
PIDs.

`Grown` describes a service by the set of the visited processes that belong to it. There is
one step lemma for each kind of visit (`Grown.known`, `Grown.child`, `Grown.adopted`,
`Grown.merge`, `Grown.absorbed`), and `grown_candidate` for a service that the pass stores.
`Grown.view_eq` says that the order of the visits does not show.
-/

set_option autoImplicit false

namespace WatchedAgent.Proofs

open WatchedAgent.Lib
open WatchedAgent.Model
open WatchedAgent.Model.ServicesManager
open WatchedAgent.Model.SocketDetector

/-! ### What is compared -/

/-- The name, the set of sources and the set of PIDs of a service. -/
def view (s : Service) : String × Finset String × Finset Nat :=
  (s.name, s.sources.toFinset, s.pids.toFinset)

/-- The set of services, each by its view. -/
def views (m : ServicesManager) : Finset (String × Finset String × Finset Nat) :=
  (m.services.map view).toFinset

theorem view_eq_iff {s t : Service} : view s = view t ↔ s.name = t.name ∧
    (∀ source, source ∈ s.sources ↔ source ∈ t.sources) ∧ ∀ n, n ∈ s.pids ↔ n ∈ t.pids := by
  unfold view
  rw [Prod.mk.injEq, Prod.mk.injEq, Finset.ext_iff, Finset.ext_iff]
  simp only [List.mem_toFinset]

/-- Managers have the same views when each service of one has its view in the other. -/
theorem views_eq_of_subset {m m' : ServicesManager}
    (h : ∀ s ∈ m.services, ∃ t ∈ m'.services, view s = view t)
    (h' : ∀ s ∈ m'.services, ∃ t ∈ m.services, view s = view t) : views m = views m' := by
  have key : ∀ {m m' : ServicesManager}, (∀ s ∈ m.services, ∃ t ∈ m'.services, view s = view t) →
      views m ⊆ views m' := by
    intro m m' h v hv
    unfold views at hv ⊢
    rw [List.mem_toFinset, List.mem_map] at hv ⊢
    obtain ⟨s, hs, rfl⟩ := hv
    obtain ⟨t, ht, heq⟩ := h s hs
    exact ⟨t, ht, heq.symm⟩
  exact Finset.Subset.antisymm (key h) (key h')

/-! ### The plan of a pass -/

/-- A service that is stored when the pass starts, by its place, or a new one, by a number
that the plan gives it. -/
inductive Home where
  | old (k : Nat)
  | new (g : Nat)
  deriving DecidableEq

/-- What the visit of a process does. A known process is looked at again, and the look finds
sources. A new one is added as a child, is ignored, or is merged into a service under a name:
into a new service too, which the first of its processes is stored as. -/
inductive Role where
  | known (k : Nat) (found : List String)
  | child (h : Home)
  | ignored
  | merged (h : Home) (name : String)

/-- The service that the process belongs to. -/
def Role.home : Role → Option Home
  | known k _ => some (.old k)
  | child h | merged h _ => some h
  | ignored => none

/-- Is the process merged into the service? -/
def Role.mergesInto (h : Home) : Role → Bool
  | merged h' _ => h' == h
  | _ => false

theorem Role.mergesInto_iff {h : Home} {r : Role} :
    r.mergesInto h = true ↔ ∃ name, r = .merged h name := by
  cases r with
  | merged h' name =>
      simp only [mergesInto, beq_iff_eq, merged.injEq]
      constructor
      · intro heq
        exact ⟨name, heq, rfl⟩
      · intro heq
        obtain ⟨-, heq, -⟩ := heq
        exact heq
  | _ => simp [mergesInto]

theorem Role.mergesInto_eq_false {h : Home} {r : Role} (hne : r.home ≠ some h) :
    r.mergesInto h = false := by
  rw [Bool.eq_false_iff]
  intro hmerges
  obtain ⟨name, heq⟩ := Role.mergesInto_iff.mp hmerges
  exact hne (by rw [heq]; rfl)

section Plan
variable (env : Env) (os : OsState) (socks : List Socket) (plan : Nat → Role)

/-- The sources that the visit of a process brings to its service. -/
def brings (pid : Nat) : List String :=
  match plan pid with
  | .known _ found => found
  | .merged _ _ => (candidate env os socks pid).sources
  | .child _ | .ignored => []

/-- Some running process brings the source to the service. -/
def Planned (h : Home) (source : String) : Prop :=
  ∃ p, os.alive p = true ∧ (plan p).home = some h ∧ source ∈ brings env os socks plan p

/-- The look at the process `pid` of the service finds the sources `found`, or they are
listed already. What else it finds, the plan has for the service anyway. -/
structure Finds (h : Home) (found : List String) (s : Service) (pid : Nat) : Prop where
  all : ∀ source ∈ found, source ∈ s.sources ∨
    ∃ i ∈ socks, (s.setSocketsOf os pid).haveSocket os i.id = true ∧ i.getSource = source
  noMore : ∀ i ∈ socks, (s.setSocketsOf os pid).haveSocket os i.id = true →
    i.getSource ∈ s.sources ∨ Planned env os socks plan h i.getSource

variable {env os socks plan} in
/-- A look that finds nothing new, at a process whose sources are listed. -/
theorem finds_of_listed {h : Home} {found : List String} {s : Service} {pid : Nat}
    (hfound : found ⊆ s.sources)
    (hheld : ∀ i ∈ socks, (s.setSocketsOf os pid).haveSocket os i.id = true →
      i.getSource ∈ s.sources) : Finds env os socks plan h found s pid :=
  ⟨fun _ hsource => .inl (hfound hsource), fun i hi hid => .inl (hheld i hi hid)⟩

/-- A merge of the process `pid` would leave the service under its name and erase none of its
processes. -/
structure MergesQuietly (s : Service) (name : String) (pid : Nat) : Prop where
  name_eq : s.name = name
  named : name ≠ ""
  outdated : s.mainProcess.any (Service.isOutdated os (detected os pid)) = false

variable {os} in
theorem mergesQuietly_iff {s : Service} {name : String} {pid : Nat} :
    MergesQuietly os s name pid ↔ s.name = name ∧ name ≠ "" ∧
      s.mainProcess.any (Service.isOutdated os (detected os pid)) = false :=
  ⟨fun h => ⟨h.name_eq, h.named, h.outdated⟩, fun h => ⟨h.1, h.2.1, h.2.2⟩⟩

instance (s : Service) (name : String) (pid : Nat) : Decidable (MergesQuietly os s name pid) :=
  decidable_of_iff _ mergesQuietly_iff.symm

/-- The processes of `V` that are merged into the service. -/
def mergedIn (h : Home) (V : List Nat) : List Nat := V.filter (fun p => (plan p).mergesInto h)

variable {plan}

theorem mem_mergedIn {h : Home} {V : List Nat} {p : Nat} :
    p ∈ mergedIn plan h V ↔ p ∈ V ∧ ∃ name, plan p = .merged h name := by
  unfold mergedIn
  rw [List.mem_filter, Role.mergesInto_iff]

theorem mergedIn_append_of_merged {h : Home} {V : List Nat} {pid : Nat} {name : String}
    (hplan : plan pid = .merged h name) :
    mergedIn plan h (V ++ [pid]) = mergedIn plan h V ++ [pid] := by
  simp [mergedIn, List.filter_append, hplan, Role.mergesInto]

theorem mergedIn_append_of_not {h : Home} {V : List Nat} {pid : Nat}
    (hno : (plan pid).mergesInto h = false) :
    mergedIn plan h (V ++ [pid]) = mergedIn plan h V := by
  simp [mergedIn, List.filter_append, hno]

/-- One more visited process of the service. -/
theorem mem_append_and_home_iff {h : Home} {V : List Nat} {pid n : Nat}
    (hhome : (plan pid).home = some h) :
    (n ∈ V ++ [pid] ∧ (plan n).home = some h) ↔ (n ∈ V ∧ (plan n).home = some h) ∨ n = pid := by
  rw [List.mem_append, List.mem_singleton, or_and_right]
  refine or_congr_right ⟨fun hn => hn.1, fun hn => ⟨hn, ?_⟩⟩
  rw [hn]
  exact hhome

end Plan

/-! ### The processes that do not run -/

section NotRunning
variable (os : OsState)

/-- The look at one PID leaves the PIDs of the main processes alone. -/
theorem mainPids_setSocketsOf (s : Service) (pid : Nat) :
    (s.setSocketsOf os pid).mainProcess.map Process.pid = s.mainProcess.map Process.pid := by
  unfold Service.setSocketsOf
  dsimp only
  split
  · exact map_modifyFirst_of_eq _ _ Process.pid _ (fun p _ _ => Process.pid_setSockets os p)
  · rfl

/-- The main processes that do not run. -/
def notRunning (s : Service) : List Process := s.mainProcess.filter (fun q => !q.getStatus os)

/-- What the erasing loop leaves of those when the process `pid` is merged. -/
def forget (l : List Process) (pid : Nat) : List Process :=
  l.eraseP (fun j => j.fullPath == (detected os pid).fullPath)

/-- The look at a running process leaves those that do not run alone. -/
theorem notRunning_updateKnown (socks : List Socket) (s : Service) {pid : Nat}
    (halive : os.alive pid = true) :
    notRunning os (updateKnown os socks pid s) = notRunning os s := by
  unfold notRunning
  rw [mainProcess_updateKnown]
  unfold Service.setSocketsOf
  dsimp only
  split
  · refine filter_modifyFirst _ _ _ _ (fun q _ hq => ?_)
    have hqpid : q.pid = pid := by simpa using hq
    simp [Process.getStatus, hqpid, halive]
  · rfl

/-- The erasing loop as the merge runs it, seen from the processes that do not run. -/
theorem forget_notRunning (s : Service) (pid : Nat) : forget os (notRunning os s) pid
    = (s.mainProcess.eraseP (Service.isOutdated os (detected os pid))).filter
        (fun q => !q.getStatus os) := by
  unfold forget notRunning
  rw [← filter_eraseP_and]
  rfl

/-- No outdated process has the executable, so a merge forgets nothing. -/
theorem MergesQuietly.forget_eq {os : OsState} {s : Service} {name : String} {pid : Nat}
    (hquiet : MergesQuietly os s name pid) :
    forget os (notRunning os s) pid = notRunning os s := by
  rw [forget_notRunning,
    List.eraseP_of_forall_not (fun q hq => List.any_eq_false.mp hquiet.outdated q hq)]
  rfl

/-- A merge of a running process forgets one process of its executable among those that do
not run. -/
theorem notRunning_updateFrom_candidate (env : Env) {socks : List Socket} {pid : Nat}
    (hfirst : (firstHeld os socks pid).isSome = true) (s : Service) (hpid : pid ≠ 0)
    (halive : os.alive pid = true) (hparent : os.ppid pid ∉ s.mainProcess.map Process.pid) :
    notRunning os (s.updateFrom os (candidate env os socks pid))
      = forget os (notRunning os s) pid := by
  have hnew : [detected os pid].filter (fun q => !q.getStatus os) = [] := by simp [halive]
  rw [forget_notRunning]
  unfold notRunning
  rw [mainProcess_updateFrom_candidate env hfirst s hpid hparent, List.filter_append,
    List.filter_filter, hnew, List.append_nil]
  -- A process that does not run is no child.
  refine List.filter_congr fun q _ => ?_
  cases hrun : q.getStatus os with
  | true => rfl
  | false =>
      have hzero : q.getPPID os = 0 := os.ppid_of_not_alive q.pid hrun
      rw [hzero]
      simpa using Ne.symm hpid

end NotRunning

/-! ### A service after some visits -/

section Grown
variable (env : Env) (os : OsState) (socks : List Socket) (plan : Nat → Role)

/-- The service of the home `h`, which is `s` at the start of the pass, after the visits of
`V`. A new service starts empty. -/
structure Grown (h : Home) (s : Service) (V : List Nat) (s' : Service) : Prop where
  unnamed : mergedIn plan h V = [] → s'.name = s.name
  named : ∀ p ∈ V, ∀ name, plan p = .merged h name → s'.name = name
  keepsName : mergedIn plan h V ≠ [] →
    s'.name ≠ "" ∨ ∃ q ∈ s'.mainProcess, q.getStatus os = true
  running : ∀ n, os.alive n = true →
    (n ∈ s'.pids ↔ n ∈ s.pids ∨ (n ∈ V ∧ (plan n).home = some h))
  outdated : notRunning os s' = (mergedIn plan h V).foldl (forget os) (notRunning os s)
  subs : ∀ n, os.alive n = false →
    (n ∈ s'.subProcess.map Process.pid ↔ n ∈ s.subProcess.map Process.pid)
  listed : s.sources ⊆ s'.sources
  brought : ∀ p ∈ V, (plan p).home = some h → brings env os socks plan p ⊆ s'.sources
  noMore : ∀ source ∈ s'.sources, source ∈ s.sources ∨ Planned env os socks plan h source

variable {env os socks plan} {h : Home} {s s' : Service} {V : List Nat} {pid : Nat}

theorem grown_nil : Grown env os socks plan h s [] s where
  unnamed := fun _ => rfl
  named := by simp
  keepsName := by simp [mergedIn]
  running := by simp
  outdated := rfl
  subs := fun _ _ => Iff.rfl
  listed := List.Subset.refl _
  brought := by simp
  noMore := fun source hsource => .inl hsource

/-- What is brought, after the visit of one more process of the service. -/
theorem Grown.brought_append (hgrown : Grown env os socks plan h s V s') {s'' : Service}
    (hgrows : s'.sources ⊆ s''.sources) (hbrings : brings env os socks plan pid ⊆ s''.sources) :
    ∀ p ∈ V ++ [pid], (plan p).home = some h → brings env os socks plan p ⊆ s''.sources := by
  intro p hp hhome
  rw [List.mem_append, List.mem_singleton] at hp
  rcases hp with hp | hp
  · exact List.Subset.trans (hgrown.brought p hp hhome) hgrows
  · rw [hp]
    exact hbrings

/-- A process that does not belong to the service is visited. -/
theorem Grown.skip (hgrown : Grown env os socks plan h s V s')
    (hne : (plan pid).home ≠ some h) : Grown env os socks plan h s (V ++ [pid]) s' := by
  have hmerged := mergedIn_append_of_not (V := V) (Role.mergesInto_eq_false hne)
  have hmem : ∀ {p}, p ∈ V ++ [pid] → (plan p).home = some h → p ∈ V := by
    intro p hp hhome
    rw [List.mem_append, List.mem_singleton] at hp
    refine hp.resolve_right (fun heq => hne ?_)
    rw [← heq]
    exact hhome
  constructor
  case unnamed => rw [hmerged]; exact hgrown.unnamed
  case named =>
    intro p hp name hplan
    exact hgrown.named p (hmem hp (by rw [hplan]; rfl)) name hplan
  case keepsName => rw [hmerged]; exact hgrown.keepsName
  case running =>
    intro n hn
    rw [hgrown.running n hn]
    refine or_congr_right ⟨fun hV => ⟨List.mem_append_left _ hV.1, hV.2⟩, fun hV => ?_⟩
    exact ⟨hmem hV.1 hV.2, hV.2⟩
  case outdated => rw [hmerged]; exact hgrown.outdated
  case subs => exact hgrown.subs
  case listed => exact hgrown.listed
  case brought => exact fun p hp hhome => hgrown.brought p (hmem hp hhome) hhome
  case noMore => exact hgrown.noMore

/-- A process that is not merged leaves the names of the merged ones. -/
theorem Grown.named_append (hgrown : Grown env os socks plan h s V s')
    (hno : (plan pid).mergesInto h = false) :
    ∀ p ∈ V ++ [pid], ∀ name, plan p = .merged h name → s'.name = name := by
  intro p hp name hplan
  rw [List.mem_append, List.mem_singleton] at hp
  rcases hp with hp | hp
  · exact hgrown.named p hp name hplan
  · rw [← hp, hplan] at hno
    exact absurd hno (by simp [Role.mergesInto])

/-- A known process is looked at. -/
theorem Grown.known (hgrown : Grown env os socks plan h s V s') {k : Nat} {found : List String}
    (halive : os.alive pid = true) (hplan : plan pid = .known k found) (hh : h = .old k)
    (hmem : pid ∈ s'.pids) (hfinds : Finds env os socks plan h found s' pid) :
    Grown env os socks plan h s (V ++ [pid]) (updateKnown os socks pid s') := by
  have hmains := mainProcess_updateKnown os s' pid socks
  have hname := name_updateKnown os s' pid socks
  have hno : (plan pid).mergesInto h = false := by rw [hplan]; rfl
  have hmerged := mergedIn_append_of_not (V := V) hno
  have hgrows : s'.sources ⊆ (updateKnown os socks pid s').sources :=
    fun _ hsource => (mem_sources_updateKnown os s' pid socks).mpr (.inl hsource)
  constructor
  case unnamed => rw [hmerged, hname]; exact hgrown.unnamed
  case named => rw [hname]; exact hgrown.named_append hno
  case keepsName =>
    intro hne
    rw [hmerged] at hne
    refine (hgrown.keepsName hne).imp (fun hne => by rw [hname]; exact hne) ?_
    intro hmain
    obtain ⟨q, hq, hrun⟩ := hmain
    have hpids := mainPids_setSocketsOf os s' pid
    obtain ⟨q', hq', hpid⟩ := List.mem_map.mp
      (hpids ▸ List.mem_map_of_mem hq : q.pid ∈ (s'.setSocketsOf os pid).mainProcess.map _)
    refine ⟨q', by rw [hmains]; exact hq', ?_⟩
    show os.alive q'.pid = true
    rw [hpid]
    exact hrun
  case running =>
    intro n hn
    rw [pids_updateKnown, mem_append_and_home_iff (by rw [hplan, hh]; rfl), ← or_assoc,
      ← hgrown.running n hn]
    refine ⟨.inl, fun hor => hor.elim id (fun heq => ?_)⟩
    rw [heq]
    exact hmem
  case outdated =>
    rw [notRunning_updateKnown os socks s' halive, hmerged]
    exact hgrown.outdated
  case subs =>
    intro n hn
    rw [subPids_updateKnown]
    exact hgrown.subs n hn
  case listed => exact List.Subset.trans hgrown.listed hgrows
  case brought =>
    refine hgrown.brought_append hgrows (fun source hsource => ?_)
    unfold brings at hsource
    rw [hplan] at hsource
    exact (mem_sources_updateKnown os s' pid socks).mpr (hfinds.all source hsource)
  case noMore =>
    intro source hsource
    rcases (mem_sources_updateKnown os s' pid socks).mp hsource with
      hold | ⟨i, hi, hheld, heq⟩
    · exact hgrown.noMore source hold
    · rw [← heq]
      exact (hfinds.noMore i hi hheld).elim (hgrown.noMore _) .inr

/-- The PIDs after a running process of the service was added as a subprocess. -/
theorem Grown.mem_pids_addSubProcess (hgrown : Grown env os socks plan h s V s')
    (hhome : (plan pid).home = some h) {n : Nat} (hn : os.alive n = true) :
    n ∈ (s'.addSubProcess (Process.ofPid os pid)).pids
      ↔ n ∈ s.pids ∨ (n ∈ V ++ [pid] ∧ (plan n).home = some h) := by
  rw [Service.mem_pids_addSubProcess, hgrown.running n hn, Process.pid_ofPid, or_assoc,
    mem_append_and_home_iff hhome]

/-- The PIDs of the subprocesses that do not run, after a running one was added. -/
theorem Grown.subs_addSubProcess (hgrown : Grown env os socks plan h s V s')
    (halive : os.alive pid = true) (n : Nat) (hn : os.alive n = false) :
    n ∈ (s'.addSubProcess (Process.ofPid os pid)).subProcess.map Process.pid
      ↔ n ∈ s.subProcess.map Process.pid := by
  rw [Service.mem_subPids_addSubProcess, hgrown.subs n hn, Process.pid_ofPid]
  refine or_iff_left fun heq => ?_
  rw [heq, halive] at hn
  exact absurd hn (by simp)

/-- A child of the service is visited. -/
theorem Grown.child (hgrown : Grown env os socks plan h s V s') (halive : os.alive pid = true)
    (hplan : plan pid = .child h) :
    Grown env os socks plan h s (V ++ [pid]) (s'.addSubProcess (Process.ofPid os pid)) := by
  have hno : (plan pid).mergesInto h = false := by rw [hplan]; rfl
  have hmerged := mergedIn_append_of_not (V := V) hno
  have hsubs := hgrown.subs_addSubProcess halive
  have hpids := fun n => hgrown.mem_pids_addSubProcess (n := n) (by rw [hplan]; rfl)
  have hbrings : brings env os socks plan pid = [] := by simp [brings, hplan]
  rw [Service.addSubProcess_eq] at hsubs hpids ⊢
  exact {
    unnamed := by rw [hmerged]; exact hgrown.unnamed
    named := hgrown.named_append hno
    keepsName := by rw [hmerged]; exact hgrown.keepsName
    running := fun n hn => hpids n hn
    outdated := by rw [hmerged]; exact hgrown.outdated
    subs := hsubs
    listed := hgrown.listed
    brought := hgrown.brought_append (List.Subset.refl _) (by rw [hbrings]; simp)
    noMore := hgrown.noMore }

/-- A process to be merged is visited as a child of the service, and the merge would add
nothing else. -/
theorem Grown.adopted (hgrown : Grown env os socks plan h s V s') {name : String}
    (halive : os.alive pid = true) (hplan : plan pid = .merged h name)
    (hquiet : MergesQuietly os s' name pid)
    (hsources : (candidate env os socks pid).sources ⊆ s'.sources) :
    Grown env os socks plan h s (V ++ [pid]) (s'.addSubProcess (Process.ofPid os pid)) := by
  have hmerged := mergedIn_append_of_merged (V := V) hplan
  have hsubs := hgrown.subs_addSubProcess halive
  have hpids := fun n => hgrown.mem_pids_addSubProcess (n := n) (by rw [hplan]; rfl)
  rw [Service.addSubProcess_eq] at hsubs hpids ⊢
  constructor
  case unnamed => rw [hmerged]; simp
  case named =>
    intro p hp name' hplan'
    rw [List.mem_append, List.mem_singleton] at hp
    rcases hp with hp | hp
    · exact hgrown.named p hp name' hplan'
    · rw [hp, hplan] at hplan'
      obtain ⟨-, hname⟩ := Role.merged.inj hplan'
      exact hquiet.name_eq.trans hname
  case keepsName =>
    intro _
    left
    show s'.name ≠ ""
    rw [hquiet.name_eq]
    exact hquiet.named
  case running => exact fun n hn => hpids n hn
  case outdated =>
    show notRunning os s' = _
    rw [hmerged, List.foldl_append, ← hgrown.outdated]
    exact hquiet.forget_eq.symm
  case subs => exact hsubs
  case listed => exact hgrown.listed
  case brought =>
    refine hgrown.brought_append (List.Subset.refl _) ?_
    unfold brings
    rw [hplan]
    exact hsources
  case noMore => exact hgrown.noMore

/-- After a merge the service keeps its name. -/
theorem Grown.nameAfterMerge_eq (hgrown : Grown env os socks plan h s V s')
    (hmerged : mergedIn plan h V ≠ []) (pid : Nat) : nameAfterMerge os pid s' = s'.name := by
  unfold nameAfterMerge
  rw [Service.named_of_ne]
  · rfl
  · rcases hgrown.keepsName hmerged with hne | ⟨q, hq, hrun⟩
    · exact .inr hne
    · exact .inl (List.ne_nil_of_mem
        ((Service.mem_mainProcess_withoutOutdated os s' _ hrun).mpr hq))

/-- The PIDs after a running process of the service was merged. -/
theorem Grown.mem_pids_updateFrom (hgrown : Grown env os socks plan h s V s')
    (hfirst : (firstHeld os socks pid).isSome = true) (hhome : (plan pid).home = some h) (n : Nat)
    (hn : os.alive n = true) : n ∈ (s'.updateFrom os (candidate env os socks pid)).pids
      ↔ n ∈ s.pids ∨ (n ∈ V ++ [pid] ∧ (plan n).home = some h) := by
  rw [mem_pids_updateFrom_candidate_iff hfirst s' hn, hgrown.running n hn, or_assoc,
    mem_append_and_home_iff hhome]

/-- The PIDs of the subprocesses that do not run, after a running one was merged. -/
theorem Grown.subs_updateFrom (hgrown : Grown env os socks plan h s V s')
    (hfirst : (firstHeld os socks pid).isSome = true) (halive : os.alive pid = true)
    (hpid : pid ≠ 0) (n : Nat) (hn : os.alive n = false) :
    n ∈ (s'.updateFrom os (candidate env os socks pid)).subProcess.map Process.pid
      ↔ n ∈ s.subProcess.map Process.pid := by
  obtain ⟨hmain, -⟩ := lists_candidate env hfirst
  rw [Service.mem_subPids_updateFrom os s' _ hmain (by rw [pid_detected]; exact hpid)
    (by rw [pid_detected]; exact halive) hn]
  exact hgrown.subs n hn

/-- A merge keeps the sources and adds those of the process. -/
theorem mem_sources_updateFrom_candidate {source : String} :
    source ∈ (s'.updateFrom os (candidate env os socks pid)).sources ↔
      source ∈ s'.sources ∨ source ∈ (candidate env os socks pid).sources :=
  Service.mem_sources_updateFrom os s' _

theorem sources_subset_updateFrom_candidate :
    s'.sources ⊆ (s'.updateFrom os (candidate env os socks pid)).sources :=
  fun _ hsource => mem_sources_updateFrom_candidate.mpr (.inl hsource)

/-- A merged process is a running main process. -/
theorem exists_running_updateFrom (halive : os.alive pid = true) (hpid : pid ≠ 0)
    (hfirst : (firstHeld os socks pid).isSome = true)
    (hparent : os.ppid pid ∉ s'.mainProcess.map Process.pid) :
    ∃ q ∈ (s'.updateFrom os (candidate env os socks pid)).mainProcess, q.getStatus os = true := by
  refine ⟨detected os pid, ?_, ?_⟩
  · rw [mainProcess_updateFrom_candidate env hfirst s' hpid hparent]
    simp
  · rw [getStatus_detected]
    exact halive

/-- A process to be merged is visited and merged. -/
theorem Grown.merge (hgrown : Grown env os socks plan h s V s') {name : String}
    (halive : os.alive pid = true) (hpid : pid ≠ 0)
    (hfirst : (firstHeld os socks pid).isSome = true)
    (hparent : os.ppid pid ∉ s'.mainProcess.map Process.pid)
    (hplan : plan pid = .merged h name) (hname : nameAfterMerge os pid s' = name) :
    Grown env os socks plan h s (V ++ [pid])
      (s'.updateFrom os (candidate env os socks pid)) := by
  obtain ⟨hmain, -⟩ := lists_candidate env hfirst
  have hhome : (plan pid).home = some h := by rw [hplan]; rfl
  have hmerged := mergedIn_append_of_merged (V := V) hplan
  have hbrings : brings env os socks plan pid = (candidate env os socks pid).sources := by
    simp [brings, hplan]
  constructor
  case unnamed => rw [hmerged]; simp
  case named =>
    intro p hp name' hplan'
    rw [Service.name_updateFrom os s' _ hmain]
    show nameAfterMerge os pid s' = name'
    rw [List.mem_append, List.mem_singleton] at hp
    rcases hp with hp | hp
    · have hne := List.ne_nil_of_mem (mem_mergedIn.mpr ⟨hp, name', hplan'⟩)
      rw [hgrown.nameAfterMerge_eq hne]
      exact hgrown.named p hp name' hplan'
    · rw [hp, hplan] at hplan'
      exact hname.trans (Role.merged.inj hplan').2
  case keepsName => exact fun _ => .inr (exists_running_updateFrom halive hpid hfirst hparent)
  case running => exact hgrown.mem_pids_updateFrom hfirst hhome
  case outdated =>
    rw [hmerged, List.foldl_append, ← hgrown.outdated]
    exact notRunning_updateFrom_candidate os env hfirst s' hpid halive hparent
  case subs => exact hgrown.subs_updateFrom hfirst halive hpid
  case listed => exact List.Subset.trans hgrown.listed sources_subset_updateFrom_candidate
  case brought =>
    refine hgrown.brought_append sources_subset_updateFrom_candidate (fun source hsource => ?_)
    rw [hbrings] at hsource
    exact mem_sources_updateFrom_candidate.mpr (.inr hsource)
  case noMore =>
    intro source hsource
    rcases mem_sources_updateFrom_candidate.mp hsource with hold | hnew
    · exact hgrown.noMore source hold
    · exact .inr ⟨pid, halive, hhome, by rw [hbrings]; exact hnew⟩

/-- A child of the service is visited and merged, and the merge adds nothing that the plan
does not have for the service anyway. -/
theorem Grown.absorbed (hgrown : Grown env os socks plan h s V s') {name : String}
    (halive : os.alive pid = true) (hpid : pid ≠ 0)
    (hfirst : (firstHeld os socks pid).isSome = true)
    (hparent : os.ppid pid ∉ s'.mainProcess.map Process.pid)
    (hplan : plan pid = .child h) (hname : nameAfterMerge os pid s' = name)
    (hquiet : MergesQuietly os s' name pid)
    (hsources : ∀ source ∈ (candidate env os socks pid).sources,
      source ∈ s'.sources ∨ Planned env os socks plan h source) :
    Grown env os socks plan h s (V ++ [pid])
      (s'.updateFrom os (candidate env os socks pid)) := by
  obtain ⟨hmain, -⟩ := lists_candidate env hfirst
  have hno : (plan pid).mergesInto h = false := by rw [hplan]; rfl
  have hmerged := mergedIn_append_of_not (V := V) hno
  have hbrings : brings env os socks plan pid = [] := by simp [brings, hplan]
  have hsame : (s'.updateFrom os (candidate env os socks pid)).name = s'.name := by
    rw [Service.name_updateFrom os s' _ hmain]
    exact hname.trans hquiet.name_eq.symm
  constructor
  case unnamed => rw [hmerged, hsame]; exact hgrown.unnamed
  case named => rw [hsame]; exact hgrown.named_append hno
  case keepsName => exact fun _ => .inr (exists_running_updateFrom halive hpid hfirst hparent)
  case running => exact hgrown.mem_pids_updateFrom hfirst (by rw [hplan]; rfl)
  case outdated =>
    rw [hmerged, ← hgrown.outdated, ← hquiet.forget_eq]
    exact notRunning_updateFrom_candidate os env hfirst s' hpid halive hparent
  case subs => exact hgrown.subs_updateFrom hfirst halive hpid
  case listed => exact List.Subset.trans hgrown.listed sources_subset_updateFrom_candidate
  case brought =>
    exact hgrown.brought_append sources_subset_updateFrom_candidate (by rw [hbrings]; simp)
  case noMore =>
    intro source hsource
    rcases mem_sources_updateFrom_candidate.mp hsource with hold | hnew
    · exact hgrown.noMore source hold
    · exact (hsources source hnew).elim (hgrown.noMore source) .inr

/-- The empty service has no process to forget. -/
theorem foldl_forget_empty (M : List Nat) : M.foldl (forget os) (notRunning os {}) = [] := by
  induction M with
  | nil => rfl
  | cons p M ih => exact ih

/-- The first process of a new service is stored. -/
theorem grown_candidate {name : String} (halive : os.alive pid = true)
    (hfirst : (firstHeld os socks pid).isSome = true) (hplan : plan pid = .merged h name)
    (hname : (candidate env os socks pid).name = name)
    (hno : ∀ p ∈ V, (plan p).home ≠ some h) :
    Grown env os socks plan h {} (V ++ [pid]) (candidate env os socks pid) := by
  obtain ⟨hmain, hpids⟩ := lists_candidate env hfirst
  have hbrings : brings env os socks plan pid = (candidate env os socks pid).sources := by
    simp [brings, hplan]
  have hself : (plan pid).home = some h := by rw [hplan]; rfl
  have honly : ∀ {p}, p ∈ V ++ [pid] → (plan p).home = some h → p = pid := by
    intro p hp hhome
    rw [List.mem_append, List.mem_singleton] at hp
    exact hp.resolve_left (fun hV => hno p hV hhome)
  constructor
  case unnamed => rw [mergedIn_append_of_merged hplan]; simp
  case named =>
    intro p hp name' hplan'
    rw [honly hp (by rw [hplan']; rfl), hplan] at hplan'
    exact hname.trans (Role.merged.inj hplan').2
  case keepsName =>
    intro _
    refine .inr ⟨detected os pid, by rw [hmain]; simp, ?_⟩
    rw [getStatus_detected]
    exact halive
  case running =>
    intro n hn
    rw [hpids, List.mem_singleton]
    refine ⟨fun heq => .inr ⟨by rw [heq]; simp, by rw [heq]; exact hself⟩, fun hor => ?_⟩
    rcases hor with hnil | ⟨hV, hhome⟩
    · exact absurd hnil (by simp [Service.pids])
    · exact honly hV hhome
  case outdated =>
    -- A live process runs, and the empty service has no process.
    have hnone : notRunning os (candidate env os socks pid) = [] := by
      unfold notRunning
      rw [hmain]
      simp [halive]
    rw [hnone, foldl_forget_empty]
  case subs =>
    intro n hn
    have hsub : n ∉ (candidate env os socks pid).subProcess.map Process.pid := by
      intro hmem
      have hn' : n ∈ (candidate env os socks pid).pids := List.mem_append_right _ hmem
      rw [hpids, List.mem_singleton] at hn'
      rw [hn', halive] at hn
      exact absurd hn (by simp)
    exact iff_of_false hsub (by simp)
  case listed => simp [Service.sources]
  case brought =>
    intro p hp hhome
    rw [honly hp hhome, hbrings]
    exact List.Subset.refl _
  case noMore =>
    intro source hsource
    exact .inr ⟨pid, halive, hself, by rw [hbrings]; exact hsource⟩

/-- The erasing loops of two merges commute. -/
theorem forget_comm (l : List Process) (p q : Nat) :
    forget os (forget os l p) q = forget os (forget os l q) p := by
  unfold forget
  -- Two processes of one executable erase the same way, and others do not interfere.
  by_cases heq : (detected os p).fullPath = (detected os q).fullPath
  · rw [heq]
  · refine List.eraseP_comm fun j _ => ?_
    by_cases hp : j.fullPath = (detected os p).fullPath
    · right
      simpa [hp] using heq
    · left
      simpa using hp

/-- A new service lists visited processes that belong to it, and no others. -/
theorem Grown.home_of_mem_pids (hgrown : Grown env os socks plan h {} V s') {n : Nat}
    (hn : n ∈ s'.pids) : n ∈ V ∧ (plan n).home = some h := by
  cases halive : os.alive n with
  | true => exact ((hgrown.running n halive).mp hn).resolve_left (by simp [Service.pids])
  | false =>
      -- A process that does not run would be left from the start.
      rcases List.mem_append.mp hn with hmain | hsub
      · obtain ⟨q, hq, rfl⟩ := List.mem_map.mp hmain
        have hnot : q ∈ notRunning os s' :=
          List.mem_filter.mpr ⟨hq, by simpa [Process.getStatus] using halive⟩
        rw [hgrown.outdated, foldl_forget_empty] at hnot
        exact absurd hnot (by simp)
      · exact absurd ((hgrown.subs n halive).mp hsub) (by simp)

/-- After the same visits in two orders, a service has the same view. -/
theorem Grown.view_eq {s₁ s₂ : Service} {V' : List Nat}
    (hgrown : Grown env os socks plan h s V s₁) (hgrown' : Grown env os socks plan h s V' s₂)
    (hperm : V.Perm V') (hall : ∀ n, os.alive n = true → n ∈ V) : view s₁ = view s₂ := by
  have hmerged : (mergedIn plan h V).Perm (mergedIn plan h V') := hperm.filter _
  -- Which outdated processes are left depends on the set of the merged ones only.
  have hout : notRunning os s₁ = notRunning os s₂ := by
    rw [hgrown.outdated, hgrown'.outdated]
    exact hmerged.foldl_eq' (fun p _ q _ l => forget_comm l p q) _
  have hmainPids : ∀ (t : Service) (n : Nat), os.alive n = false →
      (n ∈ t.mainProcess.map Process.pid ↔ n ∈ (notRunning os t).map Process.pid) := by
    intro t n hn
    unfold notRunning
    simp only [List.mem_map, List.mem_filter]
    constructor
    · rintro ⟨q, hq, rfl⟩
      exact ⟨q, ⟨hq, by simpa [Process.getStatus] using hn⟩, rfl⟩
    · rintro ⟨q, ⟨hq, -⟩, rfl⟩
      exact ⟨q, hq, rfl⟩
  rw [view_eq_iff]
  refine ⟨?_, ?_, ?_⟩
  · -- Without a merge the name is the old one, and any merge leaves the planned one.
    cases hcases : mergedIn plan h V with
    | nil =>
        have hnil : mergedIn plan h V' = [] := List.Perm.nil_eq (hcases ▸ hmerged) ▸ rfl
        rw [hgrown.unnamed hcases, hgrown'.unnamed hnil]
    | cons p M =>
        obtain ⟨hp, name, hname⟩ := mem_mergedIn.mp (hcases ▸ List.mem_cons_self :
          p ∈ mergedIn plan h V)
        rw [hgrown.named p hp name hname, hgrown'.named p (hperm.subset hp) name hname]
  · -- Each source is listed at the start, or some visited process brings it.
    have key : ∀ {V V' : List Nat} {s₁ s₂ : Service}, Grown env os socks plan h s V s₁ →
        Grown env os socks plan h s V' s₂ → (∀ n, os.alive n = true → n ∈ V') →
        s₁.sources ⊆ s₂.sources := by
      intro V V' s₁ s₂ hgrown hgrown' hall source hsource
      rcases hgrown.noMore source hsource with hold | ⟨p, hp, hhome, hbrings⟩
      · exact hgrown'.listed hold
      · exact hgrown'.brought p (hall p hp) hhome hbrings
    have hall' : ∀ n, os.alive n = true → n ∈ V' := fun n hn => hperm.subset (hall n hn)
    exact fun source => ⟨fun hs => key hgrown hgrown' hall' hs,
      fun hs => key hgrown' hgrown hall hs⟩
  · intro n
    cases hn : os.alive n with
    | true => rw [hgrown.running n hn, hgrown'.running n hn, hperm.mem_iff]
    | false =>
        unfold Service.pids
        rw [List.mem_append, List.mem_append, hmainPids s₁ n hn, hmainPids s₂ n hn, hout,
          hgrown.subs n hn, hgrown'.subs n hn]

end Grown

end WatchedAgent.Proofs
