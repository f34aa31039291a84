import WatchedAgent.Proofs.Coverage
import WatchedAgent.Proofs.Growth

/-!
# `WatchedAgent.Proofs.Order`: passes over `/proc` in two orders

Two passes of `socketDetector::find` from one state, over one moment, that list `/proc` in
two orders. `views` is what is compared: for each service the name, the set of sources and
the set of PIDs.

Each visit reads what earlier visits of the pass wrote. `Follows` says that a visit, in the
state before it, decides what a plan gives its process. `Settled` describes the services
after some visits that follow, by the set of the visited processes. The result is
`views_find_eq_of_follows`: two passes that follow one plan leave the same views.
`not_views_find_eq_child_first` is a child that is visited before its parent, and
`ignored_iff_of_views_eq` says that no other visits make up for a process that one order
ignores.
-/

set_option autoImplicit false

namespace WatchedAgent.Proofs

open WatchedAgent.Lib
open WatchedAgent.Lib.Run
open WatchedAgent.Model
open WatchedAgent.Model.ServicesManager
open WatchedAgent.Model.SocketDetector

/-! ### Visits that follow a plan -/

/-- The service at the place `j` is that of the home. A new service is told by the processes
that it lists. -/
def IsHome (m₀ : ServicesManager) (plan : Nat → Role) (m : ServicesManager) (h : Home) (j : Nat) :
    Prop :=
  match h with
  | .old k => j = k ∧ k < m₀.services.length
  | .new g => m₀.services.length ≤ j ∧
      ∃ t ∈ m.services[j]?, ∃ n ∈ t.pids, (plan n).home = some (.new g)

instance (m₀ : ServicesManager) (plan : Nat → Role) (m : ServicesManager) (h : Home) (j : Nat) :
    Decidable (IsHome m₀ plan m h j) :=
  match h with
  | .old k => inferInstanceAs (Decidable (j = k ∧ k < m₀.services.length))
  | .new g => inferInstanceAs (Decidable (m₀.services.length ≤ j ∧
      ∃ t ∈ m.services[j]?, ∃ n ∈ t.pids, (plan n).home = some (.new g)))

section Follows
variable (env : Env) (os : OsState) (socks : List Socket) (m₀ : ServicesManager)
  (plan : Nat → Role)

/-- A visit in the state `m` of a pass from `m₀` decides what the plan says. A process to be
merged may also be met as a child of the service, where the merge would add no source. A
child may be merged, where the sources are those of others that the plan merges. -/
inductive Follows (m : ServicesManager) (pid : Nat) : Prop
  | known (k : Nat) (found : List String) (planned : plan pid = .known k found)
      (old : k < m₀.services.length) (now : decision env os socks m pid = .refresh k)
      (finds : ∀ s ∈ m.services[k]?, Finds env os socks plan (.old k) found s pid)
  | child (h : Home) (j : Nat) (planned : plan pid = .child h) (home : IsHome m₀ plan m h j)
      (now : decision env os socks m pid = .child j)
  | ignored (planned : plan pid = .ignored) (now : decision env os socks m pid = .ignore)
  | merged (h : Home) (name : String) (j : Nat) (planned : plan pid = .merged h name)
      (home : IsHome m₀ plan m h j) (now : decision env os socks m pid = .merge j name)
  | adopted (h : Home) (name : String) (j : Nat) (planned : plan pid = .merged h name)
      (home : IsHome m₀ plan m h j) (now : decision env os socks m pid = .child j)
      (quiet : ∀ s ∈ m.services[j]?, MergesQuietly os s name pid)
      (listed : ∀ s ∈ m.services[j]?, (candidate env os socks pid).sources ⊆ s.sources)
  | absorbed (h : Home) (name : String) (j : Nat) (planned : plan pid = .child h)
      (home : IsHome m₀ plan m h j) (now : decision env os socks m pid = .merge j name)
      (quiet : ∀ s ∈ m.services[j]?, MergesQuietly os s name pid)
      (others : ∀ s ∈ m.services[j]?, ∀ source ∈ (candidate env os socks pid).sources,
        source ∈ s.sources ∨ Planned env os socks plan h source)
  | stored (g : Nat) (name : String) (planned : plan pid = .merged (.new g) name)
      (first : ∀ t ∈ m.services, ∀ n ∈ t.pids, (plan n).home ≠ some (.new g))
      (now : decision env os socks m pid = .store)
      (named : (candidate env os socks pid).name = name)

end Follows

/-! ### All services after some visits -/

section Settled
variable (env : Env) (os : OsState) (socks : List Socket) (m₀ : ServicesManager)
  (plan : Nat → Role)

/-- The service of a home when the pass starts. -/
def atStart : Home → Service
  | .old k => (m₀.services[k]?).getD {}
  | .new _ => {}

/-- The state after the visits of `V`. The services are those of `homes`, in this order: the
services of the start, and a new one for each home of `V`. -/
structure Settled (homes : List Home) (V : List Nat) (m : ServicesManager) : Prop where
  alive : ∀ p ∈ V, os.alive p = true
  nodup : homes.Nodup
  old : ∀ k < m₀.services.length, homes[k]? = some (.old k)
  mem : ∀ h, h ∈ homes ↔ (∃ k < m₀.services.length, h = .old k) ∨
    ∃ g, h = .new g ∧ ∃ p ∈ V, (plan p).home = some (.new g)
  length : m.services.length = homes.length
  grown : ∀ (j : Nat) h t, homes[j]? = some h → m.services[j]? = some t →
    Grown env os socks plan h (atStart m₀ h) V t

variable {env os socks m₀ plan} {homes : List Home} {V : List Nat} {m m' : ServicesManager}
  {pid : Nat}

/-- A home has one place. -/
theorem Settled.eq_of_getElem? (hset : Settled env os socks m₀ plan homes V m) {i j : Nat}
    {h : Home} (hi : homes[i]? = some h) (hj : homes[j]? = some h) : i = j := by
  obtain ⟨hlt, -⟩ := List.getElem?_eq_some_iff.mp hi
  exact (List.getElem?_inj hlt hset.nodup).mp (hi.trans hj.symm)

/-- A place that the state shows to be of a home is that of the home. -/
theorem Settled.getElem?_of_isHome (hset : Settled env os socks m₀ plan homes V m) {h : Home}
    {j : Nat} (hhome : IsHome m₀ plan m h j) : homes[j]? = some h := by
  cases h with
  | old k =>
      obtain ⟨rfl, hk⟩ := hhome
      exact hset.old j hk
  | new g =>
      obtain ⟨hle, t, ht, n, hn, hplan⟩ := hhome
      have hlt : j < homes.length := by
        rw [← hset.length]
        exact (List.getElem?_eq_some_iff.mp ht).1
      have hj := List.getElem?_eq_getElem hlt
      have hgrown := hset.grown j _ t hj ht
      rcases (hset.mem _).mp (List.mem_of_getElem? hj) with ⟨k, hk, heq⟩ | ⟨g', heq, -⟩
      · -- The services of the start have the places before.
        rw [heq] at hj
        have hjk := hset.eq_of_getElem? hj (hset.old k hk)
        omega
      · rw [heq] at hj hgrown
        obtain ⟨-, hplan'⟩ := hgrown.home_of_mem_pids hn
        rw [hj, ← hplan, hplan']

/-- One more live process. -/
theorem Settled.alive_append (hset : Settled env os socks m₀ plan homes V m)
    (halive : os.alive pid = true) : ∀ p ∈ V ++ [pid], os.alive p = true := by
  intro p hp
  rw [List.mem_append, List.mem_singleton] at hp
  rcases hp with hp | hp
  · exact hset.alive p hp
  · rw [hp]
    exact halive

/-- A process of a home that has a place opens no new one. -/
theorem Settled.mem_append (hset : Settled env os socks m₀ plan homes V m)
    (hhome : ∀ h, (plan pid).home = some h → h ∈ homes) (h : Home) :
    h ∈ homes ↔ (∃ k < m₀.services.length, h = .old k) ∨
      ∃ g, h = .new g ∧ ∃ p ∈ V ++ [pid], (plan p).home = some (.new g) := by
  constructor
  · intro hmem
    refine ((hset.mem h).mp hmem).imp_right (fun hnew => ?_)
    obtain ⟨g, heq, p, hp, hplan⟩ := hnew
    exact ⟨g, heq, p, List.mem_append_left _ hp, hplan⟩
  · intro hor
    rcases hor with hold | ⟨g, heq, p, hp, hplan⟩
    · exact (hset.mem h).mpr (.inl hold)
    · rw [List.mem_append, List.mem_singleton] at hp
      rcases hp with hp | hp
      · exact (hset.mem h).mpr (.inr ⟨g, heq, p, hp, hplan⟩)
      · rw [heq]
        exact hhome _ (by rw [← hp]; exact hplan)

theorem settled_nil :
    Settled env os socks m₀ plan ((List.range m₀.services.length).map .old) [] m₀ := by
  constructor
  case alive => simp
  case nodup => exact (List.nodup_range).map (fun i j heq => Home.old.inj heq)
  case old => exact fun k hk => by simp [hk]
  case mem => simp [eq_comm]
  case length => simp
  case grown =>
    intro j h t hj ht
    obtain ⟨k, hk, heq⟩ := Option.map_eq_some_iff.mp (List.getElem?_map ▸ hj)
    obtain rfl : j = k := by
      obtain ⟨_, hjk⟩ := List.getElem?_eq_some_iff.mp hk
      rw [← hjk, List.getElem_range]
    rw [← heq]
    have hstart : atStart m₀ (.old j) = t := by simp [atStart, ht]
    rw [hstart]
    exact grown_nil

/-- A visit of a process of a home that has a place changes the service there. -/
theorem Settled.of_modify (hset : Settled env os socks m₀ plan homes V m) {h : Home} {j : Nat}
    {f : Service → Service} (halive : os.alive pid = true) (hhome : (plan pid).home = some h)
    (hj : homes[j]? = some h) (hserv : m'.services = m.services.modify j f)
    (hstep : ∀ t, m.services[j]? = some t → Grown env os socks plan h (atStart m₀ h) V t →
      Grown env os socks plan h (atStart m₀ h) (V ++ [pid]) (f t)) :
    Settled env os socks m₀ plan homes (V ++ [pid]) m' := by
  constructor
  case alive => exact hset.alive_append halive
  case nodup => exact hset.nodup
  case old => exact hset.old
  case mem =>
    refine hset.mem_append (fun h' hhome' => ?_)
    rw [← Option.some.inj (hhome.symm.trans hhome')]
    exact List.mem_of_getElem? hj
  case length => rw [hserv, List.length_modify, hset.length]
  case grown =>
    intro i h' t hi ht
    rw [hserv] at ht
    -- The service of the home takes the step, and the others are as before.
    by_cases hij : j = i
    · subst hij
      rw [List.getElem?_modify_eq] at ht
      obtain ⟨t₀, ht₀, rfl⟩ := Option.map_eq_some_iff.mp ht
      obtain rfl : h = h' := Option.some.inj (hj.symm.trans hi)
      exact hstep t₀ ht₀ (hset.grown j h t₀ hj ht₀)
    · rw [List.getElem?_modify_ne _ _ hij] at ht
      refine (hset.grown i h' t hi ht).skip (fun hhome' => hij ?_)
      rw [hhome] at hhome'
      exact hset.eq_of_getElem? (hj.trans hhome') hi

/-- A process is ignored. -/
theorem Settled.of_ignored (hset : Settled env os socks m₀ plan homes V m)
    (halive : os.alive pid = true) (hplan : plan pid = .ignored)
    (hserv : m'.services = m.services) : Settled env os socks m₀ plan homes (V ++ [pid]) m' := by
  have hnone : (plan pid).home = none := by rw [hplan]; rfl
  constructor
  case alive => exact hset.alive_append halive
  case nodup => exact hset.nodup
  case old => exact hset.old
  case mem =>
    refine hset.mem_append (fun h hhome => ?_)
    rw [hnone] at hhome
    exact absurd hhome.symm (Option.some_ne_none h)
  case length => rw [hserv, hset.length]
  case grown =>
    intro j h t hj ht
    rw [hserv] at ht
    refine (hset.grown j h t hj ht).skip (fun hhome => ?_)
    rw [hnone] at hhome
    exact absurd hhome.symm (Option.some_ne_none h)

/-- The first process of a new service is stored. -/
theorem Settled.of_stored (hset : Settled env os socks m₀ plan homes V m) {g : Nat}
    {name : String} (halive : os.alive pid = true) (hplan : plan pid = .merged (.new g) name)
    (hfirst : (firstHeld os socks pid).isSome = true)
    (hname : (candidate env os socks pid).name = name) (hno : .new g ∉ homes)
    (hserv : m'.services = m.services ++ [candidate env os socks pid]) :
    Settled env os socks m₀ plan (homes ++ [.new g]) (V ++ [pid]) m' := by
  have hhome : (plan pid).home = some (.new g) := by rw [hplan]; rfl
  have hnone : ∀ p ∈ V, (plan p).home ≠ some (.new g) := fun p hp hp' =>
    hno ((hset.mem _).mpr (.inr ⟨g, rfl, p, hp, hp'⟩))
  have hle : m₀.services.length ≤ homes.length := by
    by_contra hlt
    have hlast := hset.old homes.length (Nat.lt_of_not_le hlt)
    rw [List.getElem?_eq_none_iff.mpr (Nat.le_refl _)] at hlast
    exact absurd hlast.symm (Option.some_ne_none _)
  constructor
  case alive => exact hset.alive_append halive
  case nodup =>
    rw [List.nodup_append]
    refine ⟨hset.nodup, List.nodup_singleton _, fun h hh h' hh' heq => hno ?_⟩
    rw [← List.mem_singleton.mp hh', ← heq]
    exact hh
  case old =>
    intro k hk
    rw [List.getElem?_append_left (Nat.lt_of_lt_of_le hk hle)]
    exact hset.old k hk
  case mem =>
    intro h
    rw [List.mem_append, List.mem_singleton, hset.mem h, or_assoc]
    refine or_congr_right ⟨fun hor => ?_, fun hnew => ?_⟩
    · rcases hor with ⟨g', heq, p, hp, hp'⟩ | heq
      · exact ⟨g', heq, p, List.mem_append_left _ hp, hp'⟩
      · exact ⟨g, heq, pid, by simp, hhome⟩
    · obtain ⟨g', heq, p, hp, hp'⟩ := hnew
      rw [List.mem_append, List.mem_singleton] at hp
      rcases hp with hp | hp
      · exact .inl ⟨g', heq, p, hp, hp'⟩
      · rw [hp, hhome] at hp'
        exact .inr (heq.trans (Option.some.inj hp').symm)
  case length => rw [hserv, List.length_append, List.length_append, hset.length]; rfl
  case grown =>
    intro j h t hj ht
    rw [hserv] at ht
    by_cases hlt : j < homes.length
    · -- A service that was there is another one.
      rw [List.getElem?_append_left hlt] at hj
      rw [List.getElem?_append_left (by rw [hset.length]; exact hlt)] at ht
      refine (hset.grown j h t hj ht).skip (fun hhome' => hno ?_)
      rw [hhome] at hhome'
      rw [Option.some.inj hhome']
      exact List.mem_of_getElem? hj
    · have hlt' := (List.getElem?_eq_some_iff.mp hj).1
      rw [List.length_append, List.length_singleton] at hlt'
      obtain rfl : j = homes.length := by omega
      rw [List.getElem?_append_right (Nat.le_refl _), Nat.sub_self] at hj
      rw [← hset.length, List.getElem?_append_right (Nat.le_refl _), Nat.sub_self] at ht
      obtain rfl : .new g = h := by simpa using hj
      obtain rfl : candidate env os socks pid = t := by simpa using ht
      exact grown_candidate halive hfirst hplan hname hnone

/-- The service that a visit merges into does not list the parent, and the merge leaves it
under the name of the decision. -/
theorem parent_and_name_of_merge {j : Nat} {name : String} {t : Service}
    (h : decision env os socks m pid = .merge j name) (ht : m.services[j]? = some t) :
    os.ppid pid ∉ t.mainProcess.map Process.pid ∧ nameAfterMerge os pid t = name := by
  obtain ⟨hparent, -, -, hname⟩ := of_decision_merge h
  rw [ht] at hname
  exact ⟨fun hmem => not_mem_pids_of_unknown hparent (List.mem_of_getElem? ht)
    (List.mem_append_left _ hmem), hname⟩

/-- The service that is looked at lists the process. -/
theorem mem_pids_of_refresh {k : Nat} {t : Service}
    (h : decision env os socks m pid = .refresh k) (ht : m.services[k]? = some t) :
    pid ∈ t.pids := by
  obtain ⟨hlt, hhas, -⟩ := List.findIdx?_eq_some_iff_getElem.mp (findIdx?_of_decision_refresh h)
  rw [List.getElem?_eq_getElem hlt, Option.some.injEq] at ht
  rw [← ht]
  exact Service.havePID_iff.mp hhas

/-- A visit that follows keeps the description. -/
theorem Settled.visit (hset : Settled env os socks m₀ plan homes V m)
    (halive : os.alive pid = true) (hpid : pid ≠ 0)
    (hfollows : Follows env os socks m₀ plan m pid) :
    ∃ homes', Settled env os socks m₀ plan homes' (V ++ [pid]) (visit env os socks m pid) := by
  have hserv := services_visit env os socks m pid
  -- One step lemma for each way to follow.
  cases hfollows with
  | known k found planned old now finds =>
      rw [now] at hserv
      refine ⟨homes, hset.of_modify halive (by rw [planned]; rfl) (hset.old k old) hserv ?_⟩
      intro t ht hgrown
      exact hgrown.known halive planned rfl (mem_pids_of_refresh now ht) (finds t ht)
  | child h j planned home now =>
      rw [now] at hserv
      exact ⟨homes, hset.of_modify halive (by rw [planned]; rfl) (hset.getElem?_of_isHome home)
        hserv (fun t _ hgrown => hgrown.child halive planned)⟩
  | ignored planned now =>
      rw [now] at hserv
      exact ⟨homes, hset.of_ignored halive planned hserv⟩
  | merged h name j planned home now =>
      obtain ⟨-, hfirst, -⟩ := of_decision_merge now
      rw [now] at hserv
      refine ⟨homes, hset.of_modify halive (by rw [planned]; rfl) (hset.getElem?_of_isHome home)
        hserv (fun t ht hgrown => ?_)⟩
      obtain ⟨hparent, hname⟩ := parent_and_name_of_merge now ht
      exact hgrown.merge halive hpid hfirst hparent planned hname
  | adopted h name j planned home now quiet listed =>
      rw [now] at hserv
      exact ⟨homes, hset.of_modify halive (by rw [planned]; rfl) (hset.getElem?_of_isHome home)
        hserv (fun t ht hgrown => hgrown.adopted halive planned (quiet t ht) (listed t ht))⟩
  | absorbed h name j planned home now quiet others =>
      obtain ⟨-, hfirst, -⟩ := of_decision_merge now
      rw [now] at hserv
      refine ⟨homes, hset.of_modify halive (by rw [planned]; rfl) (hset.getElem?_of_isHome home)
        hserv (fun t ht hgrown => ?_)⟩
      obtain ⟨hparent, hname⟩ := parent_and_name_of_merge now ht
      exact hgrown.absorbed halive hpid hfirst hparent planned hname (quiet t ht) (others t ht)
  | stored g name planned first now named =>
      obtain ⟨hfirst, -⟩ := of_decision_store now
      rw [now] at hserv
      refine ⟨_, hset.of_stored halive planned hfirst named (fun hmem => ?_) hserv⟩
      -- Its service would list a process of the home.
      rcases (hset.mem _).mp hmem with ⟨k, -, heq⟩ | ⟨g', heq, p, hp, hplan⟩
      · exact absurd heq (by simp)
      · obtain ⟨j, hj⟩ := List.mem_iff_getElem?.mp hmem
        have hlt : j < m.services.length := by
          rw [hset.length]
          exact (List.getElem?_eq_some_iff.mp hj).1
        have hgrown := hset.grown j _ _ hj (List.getElem?_eq_getElem hlt)
        rw [← heq] at hplan
        exact first _ (List.getElem_mem hlt) p
          ((hgrown.running p (hset.alive p hp)).mpr (.inr ⟨hp, hplan⟩)) hplan

/-- After the same visits in two orders, each service has its view in the other state. -/
theorem Settled.exists_view_eq (hset : Settled env os socks m₀ plan homes V m)
    {homes' : List Home} {V' : List Nat} (hset' : Settled env os socks m₀ plan homes' V' m')
    (hperm : V.Perm V') (hall : ∀ n, os.alive n = true → n ∈ V) :
    ∀ s ∈ m.services, ∃ t ∈ m'.services, view s = view t := by
  intro s hs
  obtain ⟨j, hj⟩ := List.mem_iff_getElem?.mp hs
  have hlt : j < homes.length := by
    rw [← hset.length]
    exact (List.getElem?_eq_some_iff.mp hj).1
  have hhome := List.getElem?_eq_getElem hlt
  -- The other state has a service of the same home.
  have hmem : homes[j] ∈ homes' := by
    rw [hset'.mem]
    refine ((hset.mem _).mp (List.getElem_mem hlt)).imp_right (fun hnew => ?_)
    obtain ⟨g, heq, p, hp, hplan⟩ := hnew
    exact ⟨g, heq, p, hperm.subset hp, hplan⟩
  obtain ⟨i, hi⟩ := List.mem_iff_getElem?.mp hmem
  have hlt' : i < m'.services.length := by
    rw [hset'.length]
    exact (List.getElem?_eq_some_iff.mp hi).1
  exact ⟨_, List.getElem_mem hlt', (hset.grown j _ s hhome hj).view_eq
    (hset'.grown i _ _ hi (List.getElem?_eq_getElem hlt')) hperm hall⟩

end Settled

/-! ### Two passes -/

section Passes
variable (env : Env) (os : Snapshot) (m : ServicesManager) (plan : Nat → Role)

/-- Every visit of the pass follows the plan. -/
def FollowsPlan : Prop :=
  ∀ socks, scan env os.toOsState = some socks →
    Meets (SocketDetector.visit env os.toOsState socks)
      (Follows env os.toOsState socks m plan) m os.pids

variable {env os m plan} in
/-- There is one scan to look at. -/
theorem FollowsPlan.of_scan (socks : List Socket) (hscan : scan env os.toOsState = some socks)
    (h : Meets (SocketDetector.visit env os.toOsState socks)
      (Follows env os.toOsState socks m plan) m os.pids) : FollowsPlan env os m plan := by
  intro socks' hsocks
  rw [Option.some.inj (hsocks.symm.trans hscan)]
  exact h

/-- What a pass has settled, when all its visits follow the plan. -/
theorem settled_walk {os : OsState} {socks : List Socket} {pids : List Nat}
    (hpids : ∀ pid ∈ pids, os.alive pid = true ∧ pid ≠ 0)
    (h : Meets (SocketDetector.visit env os socks) (Follows env os socks m plan) m pids) :
    ∃ homes, Settled env os socks m plan homes pids (walk env os socks m pids) := by
  have hrun := exec_history (I := fun V m' => ∃ homes, Settled env os socks m plan homes V m')
    m pids (fun V m' pid hpid hset hfollows => ?_) ⟨_, settled_nil⟩ h
  · rw [List.nil_append] at hrun
    exact hrun
  · obtain ⟨homes, hset⟩ := hset
    exact hset.visit (hpids pid hpid).1 (hpids pid hpid).2 hfollows

/-- Whether a visit follows does not depend on the listing. -/
theorem follows_of_relist (names : List String) {os : OsState} {socks : List Socket}
    {m₀ m : ServicesManager} {pid : Nat} (h : Follows env { os with names } socks m₀ plan m pid) :
    Follows env os socks m₀ plan m pid := by
  cases h with
  | known k found planned old now finds =>
      refine .known k found planned old now (fun s hs => ?_)
      obtain ⟨hall, hnoMore⟩ := finds s hs
      exact ⟨hall, hnoMore⟩
  | child h j planned home now => exact .child h j planned home now
  | ignored planned now => exact .ignored planned now
  | merged h name j planned home now => exact .merged h name j planned home now
  | adopted h name j planned home now quiet listed =>
      refine .adopted h name j planned home now (fun s hs => ?_) listed
      obtain ⟨hname, hnamed, houtdated⟩ := quiet s hs
      exact ⟨hname, hnamed, houtdated⟩
  | absorbed h name j planned home now quiet others =>
      refine .absorbed h name j planned home now (fun s hs => ?_) others
      obtain ⟨hname, hnamed, houtdated⟩ := quiet s hs
      exact ⟨hname, hnamed, houtdated⟩
  | stored g name planned first now named => exact .stored g name planned first now named

end Passes

/-! ### What no other visit makes up for -/

section Forced
variable (env : Env) (os : OsState) (socks : List Socket) {m m' : ServicesManager} {pid n : Nat}

/-- The views tell which PIDs are known. -/
theorem havePID_of_views_eq (h : views m = views m') (hn : m.havePID n = true) :
    m'.havePID n = true := by
  obtain ⟨s, hs, hmem⟩ := havePID_iff.mp hn
  have hview : view s ∈ views m' := by
    rw [← h]
    exact List.mem_toFinset.mpr (List.mem_map_of_mem hs)
  obtain ⟨t, ht, heq⟩ := List.mem_map.mp (List.mem_toFinset.mp hview)
  exact havePID_iff.mpr ⟨t, ht, ((view_eq_iff.mp heq).2.2 n).mpr hmem⟩

/-- A visit records no PID but its own. -/
theorem havePID_or_eq_of_havePID_visit
    (hn : (SocketDetector.visit env os socks m pid).havePID n = true) :
    m.havePID n = true ∨ n = pid := by
  -- One service changes, and it gains no other PID.
  have hmodify : ∀ (k : Nat) (f : Service → Service),
      (∀ s, n ∈ (f s).pids → n ∈ s.pids ∨ n = pid) →
      ∀ s ∈ m.services.modify k f, n ∈ s.pids → m.havePID n = true ∨ n = pid := by
    intro k f hf s hs hmem
    obtain ⟨i, hi⟩ := List.mem_iff_getElem?.mp hs
    by_cases hik : k = i
    · rw [hik, List.getElem?_modify_eq] at hi
      obtain ⟨s₀, hs₀, heq⟩ := Option.map_eq_some_iff.mp hi
      rw [← heq] at hmem
      exact (hf s₀ hmem).imp_left
        (fun hmem => havePID_iff.mpr ⟨s₀, List.mem_of_getElem? hs₀, hmem⟩)
    · rw [List.getElem?_modify_ne _ _ hik] at hi
      exact .inl (havePID_iff.mpr ⟨s, List.mem_of_getElem? hi, hmem⟩)
  obtain ⟨s, hs, hmem⟩ := havePID_iff.mp hn
  rw [services_visit] at hs
  cases hd : decision env os socks m pid with
  | refresh k =>
      rw [hd] at hs
      refine hmodify k _ (fun s hmem => .inl ?_) s hs hmem
      rw [pids_updateKnown] at hmem
      exact hmem
  | child k =>
      rw [hd] at hs
      refine hmodify k _ (fun s hmem => ?_) s hs hmem
      rw [Service.mem_pids_addSubProcess, Process.pid_ofPid] at hmem
      exact hmem
  | ignore =>
      rw [hd] at hs
      exact .inl (havePID_iff.mpr ⟨s, hs, hmem⟩)
  | merge k name =>
      rw [hd] at hs
      obtain ⟨-, hfirst, -⟩ := of_decision_merge hd
      exact hmodify k _ (fun s => mem_pids_updateFrom_candidate hfirst s) s hs hmem
  | store =>
      rw [hd] at hs
      obtain ⟨hfirst, -⟩ := of_decision_store hd
      rcases List.mem_append.mp hs with hs | hs
      · exact .inl (havePID_iff.mpr ⟨s, hs, hmem⟩)
      · rw [List.mem_singleton.mp hs, (lists_candidate env hfirst).2, List.mem_singleton] at hmem
        exact .inr hmem

/-- The place of the service that a decision names. -/
def Decision.target : Decision → Option Nat
  | refresh k | child k | merge k _ => some k
  | ignore | store => none

/-- The place that a decision names is one of the list. -/
theorem lt_length_of_target {j : Nat} (h : (decision env os socks m pid).target = some j) :
    j < m.services.length := by
  cases hd : decision env os socks m pid with
  | refresh k =>
      rw [hd] at h
      rw [← Option.some.inj h]
      exact lt_length_of_findIdx? m (findIdx?_of_decision_refresh hd)
  | child k =>
      rw [hd] at h
      rw [← Option.some.inj h]
      exact lt_length_of_findIdx? m (findIdx?_of_decision_child hd)
  | merge k name =>
      rw [hd] at h
      obtain ⟨-, -, htarget, -⟩ := of_decision_merge hd
      rw [← Option.some.inj h]
      exact lt_length_of_mergeTarget os m htarget
  | ignore =>
      rw [hd] at h
      exact absurd h.symm (Option.some_ne_none j)
  | store =>
      rw [hd] at h
      exact absurd h.symm (Option.some_ne_none j)

/-- A service after a visit lists its live processes still, and the visited one too where
the decision names it. -/
theorem exists_getElem?_visit (halive : os.alive pid = true) {j : Nat} {s : Service}
    (hs : m.services[j]? = some s) :
    ∃ s', (SocketDetector.visit env os socks m pid).services[j]? = some s' ∧
      (∀ n, os.alive n = true → n ∈ s.pids → n ∈ s'.pids) ∧
      ((decision env os socks m pid).target = some j → pid ∈ s'.pids) := by
  have hserv := services_visit env os socks m pid
  -- Where the decision names a service, the visit changes that one only.
  have hmodify : ∀ (k : Nat) (f : Service → Service),
      (decision env os socks m pid).target = some k →
      (SocketDetector.visit env os socks m pid).services = m.services.modify k f →
      (∀ n, os.alive n = true → n ∈ s.pids → n ∈ (f s).pids) → (j = k → pid ∈ (f s).pids) →
      ∃ s', (SocketDetector.visit env os socks m pid).services[j]? = some s' ∧
        (∀ n, os.alive n = true → n ∈ s.pids → n ∈ s'.pids) ∧
        ((decision env os socks m pid).target = some j → pid ∈ s'.pids) := by
    intro k f htarget hserv hkeeps hself
    by_cases hk : k = j
    · refine ⟨f s, ?_, hkeeps, fun _ => hself hk.symm⟩
      rw [hserv, hk, List.getElem?_modify_eq, hs]
      rfl
    · refine ⟨s, ?_, fun _ _ hn => hn, fun h => ?_⟩
      · rw [hserv, List.getElem?_modify_ne _ _ hk, hs]
      · exact absurd (Option.some.inj (htarget.symm.trans h)) hk
  cases hd : decision env os socks m pid with
  | refresh k =>
      rw [hd] at hserv
      rw [← hd]
      refine hmodify k _ (by rw [hd]; rfl) hserv (fun n _ hn => ?_) (fun hjk => ?_)
      · rw [pids_updateKnown]
        exact hn
      · subst hjk
        rw [pids_updateKnown]
        exact mem_pids_of_refresh hd hs
  | child k =>
      rw [hd] at hserv
      rw [← hd]
      refine hmodify k _ (by rw [hd]; rfl) hserv (fun n _ hn => ?_) (fun _ => ?_)
      · rw [Service.mem_pids_addSubProcess]
        exact .inl hn
      · rw [Service.mem_pids_addSubProcess, Process.pid_ofPid]
        exact .inr rfl
  | ignore =>
      rw [hd] at hserv
      exact ⟨s, by rw [hserv]; exact hs, fun _ _ hn => hn,
        fun h => absurd h.symm (Option.some_ne_none j)⟩
  | merge k name =>
      rw [hd] at hserv
      obtain ⟨-, hfirst, -⟩ := of_decision_merge hd
      rw [← hd]
      exact hmodify k _ (by rw [hd]; rfl) hserv
        (fun n hnalive hn => (mem_pids_updateFrom_candidate_iff hfirst s hnalive).mpr (.inl hn))
        (fun _ => (mem_pids_updateFrom_candidate_iff hfirst s halive).mpr (.inr rfl))
  | store =>
      rw [hd] at hserv
      refine ⟨s, ?_, fun _ _ hn => hn, fun h => absurd h.symm (Option.some_ne_none j)⟩
      rw [hserv]
      exact (List.getElem?_append_left (List.getElem?_eq_some_iff.mp hs).1).trans hs

/-- After its visit a live process is known, unless the visit ignores it. -/
theorem havePID_visit_self_iff (halive : os.alive pid = true) :
    (SocketDetector.visit env os socks m pid).havePID pid = true
      ↔ decision env os socks m pid ≠ .ignore := by
  have hserv := services_visit env os socks m pid
  cases htarget : (decision env os socks m pid).target with
  | some j =>
      have hlt := lt_length_of_target env os socks htarget
      obtain ⟨s', hs', -, hself⟩ :=
        exists_getElem?_visit env os socks halive (List.getElem?_eq_getElem hlt)
      refine iff_of_true (havePID_iff.mpr ⟨s', List.mem_of_getElem? hs', hself htarget⟩) ?_
      intro hd
      rw [hd] at htarget
      exact absurd htarget.symm (Option.some_ne_none j)
  | none =>
      cases hd : decision env os socks m pid with
      | ignore =>
          rw [hd] at hserv
          refine iff_of_false (fun hknown => ?_) (by simp)
          -- A known process would have been looked at.
          obtain ⟨s, hs, hmem⟩ := havePID_iff.mp hknown
          rw [hserv] at hs
          obtain ⟨j, hj⟩ := exists_findIdx?_havePID m (havePID_iff.mpr ⟨s, hs, hmem⟩)
          unfold decision at hd
          rw [hj] at hd
          exact absurd hd (by simp)
      | store =>
          rw [hd] at hserv
          obtain ⟨hfirst, -⟩ := of_decision_store hd
          refine iff_of_true (havePID_iff.mpr ⟨candidate env os socks pid, ?_, ?_⟩) (by simp)
          · rw [hserv]
            exact List.mem_append_right _ (List.mem_singleton_self _)
          · rw [(lists_candidate env hfirst).2]
            exact List.mem_singleton_self _
      | _ =>
          rw [hd] at htarget
          exact absurd htarget (Option.some_ne_none _)

/-- A walk, parted at one visit. -/
theorem walk_append_cons (V W : List Nat) : walk env os socks m (V ++ pid :: W)
    = exec (SocketDetector.visit env os socks)
        (SocketDetector.visit env os socks (walk env os socks m V) pid) W := by
  rw [walk_eq_exec, exec_append, exec_cons, walk_eq_exec]

/-- At the end of a walk a live process is known, unless its visit ignored it. -/
theorem havePID_walk_iff {V W : List Nat} (halive : os.alive pid = true) (hW : pid ∉ W) :
    (walk env os socks m (V ++ pid :: W)).havePID pid = true
      ↔ decision env os socks (walk env os socks m V) pid ≠ .ignore := by
  rw [← havePID_visit_self_iff env os socks halive, walk_append_cons]
  constructor
  · -- Only its own visit could record it.
    intro hend
    by_contra hno
    have hstep : ∀ (m' : ServicesManager), ∀ q ∈ W, m'.havePID pid = false →
        (SocketDetector.visit env os socks m' q).havePID pid = false := by
      intro m' q hq hno
      by_contra hknown
      rcases havePID_or_eq_of_havePID_visit env os socks (Bool.not_eq_false _ ▸ hknown) with h | h
      · rw [hno] at h
        exact absurd h (by simp)
      · exact hW (h ▸ hq)
    have hend' := exec_keeps (I := fun m : ServicesManager => m.havePID pid = false) _ W hstep
      (Bool.eq_false_iff.mpr hno)
    rw [hend] at hend'
    exact absurd hend' (by simp)
  · exact exec_keeps _ W
      (fun m' q _ hknown => havePID_visit env os socks m' q halive hknown)

/-- Two orders with the same views ignore the same processes. -/
theorem ignored_iff_of_views_eq {V W V' W' : List Nat} (halive : os.alive pid = true)
    (hW : pid ∉ W) (hW' : pid ∉ W')
    (heq : views (walk env os socks m (V ++ pid :: W))
      = views (walk env os socks m (V' ++ pid :: W'))) :
    decision env os socks (walk env os socks m V) pid = .ignore
      ↔ decision env os socks (walk env os socks m V') pid = .ignore := by
  have hiff : (walk env os socks m (V ++ pid :: W)).havePID pid = true
      ↔ (walk env os socks m (V' ++ pid :: W')).havePID pid = true :=
    ⟨havePID_of_views_eq heq, havePID_of_views_eq heq.symm⟩
  rw [havePID_walk_iff env os socks halive hW, havePID_walk_iff env os socks halive hW'] at hiff
  exact not_iff_not.mp hiff

/-- Two orders with the same views put a process together with the same live processes. -/
theorem together_of_views_eq {V W V' W' : List Nat} {j : Nat} {s : Service}
    (halive : os.alive pid = true) (hnalive : os.alive n = true)
    (htarget : (decision env os socks (walk env os socks m V) pid).target = some j)
    (hs : (walk env os socks m V).services[j]? = some s) (hn : n ∈ s.pids)
    (hlive : ∀ p ∈ W, os.alive p = true)
    (heq : views (walk env os socks m (V ++ pid :: W))
      = views (walk env os socks m (V' ++ pid :: W'))) :
    ∃ t ∈ (walk env os socks m (V' ++ pid :: W')).services, pid ∈ t.pids ∧ n ∈ t.pids := by
  have hend : ∃ s', (walk env os socks m (V ++ pid :: W)).services[j]? = some s' ∧
      pid ∈ s'.pids ∧ n ∈ s'.pids := by
    rw [walk_append_cons]
    refine exec_keeps (I := fun m : ServicesManager =>
      ∃ s', m.services[j]? = some s' ∧ pid ∈ s'.pids ∧ n ∈ s'.pids) _ W (fun m' q hq hboth => ?_) ?_
    · obtain ⟨s', hs', hpid, hn⟩ := hboth
      obtain ⟨s'', hs'', hkeeps, -⟩ := exists_getElem?_visit env os socks (hlive q hq) hs'
      exact ⟨s'', hs'', hkeeps pid halive hpid, hkeeps n hnalive hn⟩
    · obtain ⟨s', hs', hkeeps, hself⟩ := exists_getElem?_visit env os socks halive hs
      exact ⟨s', hs', hself htarget, hkeeps n hnalive hn⟩
  obtain ⟨s', hs', hpid, hn⟩ := hend
  have hview : view s' ∈ views (walk env os socks m (V' ++ pid :: W')) := by
    rw [← heq]
    exact List.mem_toFinset.mpr (List.mem_map_of_mem (List.mem_of_getElem? hs'))
  obtain ⟨t, ht, hview⟩ := List.mem_map.mp (List.mem_toFinset.mp hview)
  obtain ⟨-, -, hpids⟩ := view_eq_iff.mp hview
  exact ⟨t, ht, (hpids pid).mpr hpid, (hpids n).mpr hn⟩

end Forced

/-! ### A child before its parent -/

/-- The listing of the parent and its child, the child first. -/
def childFirst : Snapshot := parentAndChild.relist ["11", "10"] (by decide)

/-- A server, 10, its child 11 without sockets, and another server, 12. -/
def twoServers : Snapshot :=
  Snapshot.ofProcs
    [(10, { exe := some "/usr/sbin/httpd", stat := "10 (httpd) S 1",
            fd := some ["socket:[100]"] }),
      (11, { exe := some "/usr/sbin/httpd", stat := "11 (httpd) S 10" }),
      (12, { exe := some "/usr/sbin/sshd", stat := "12 (sshd) S 1",
             fd := some ["socket:[200]"] })]
    { net := fun type => if type = "tcp" then
        ["0: 00000000:0050 00000000:0000 0A 0:0 0:0 0 0 0 100",
          "1: 00000000:0016 00000000:0000 0A 0:0 0:0 0 0 0 200"] else [] }
    (by decide) (by decide)

/-- The same servers, where 12 has a child 13 that holds its socket, and an idle process. -/
def forkingServers : Snapshot :=
  Snapshot.ofProcs
    [(10, { exe := some "/usr/sbin/httpd", stat := "10 (httpd) S 1",
            fd := some ["socket:[100]"] }),
      (11, { exe := some "/usr/sbin/httpd", stat := "11 (httpd) S 10" }),
      (12, { exe := some "/usr/sbin/sshd", stat := "12 (sshd) S 1",
             fd := some ["socket:[200]"] }),
      (13, { exe := some "/usr/sbin/sshd", stat := "13 (sshd) S 12",
             fd := some ["socket:[200]"] }),
      (14, { exe := some "/bin/sleep", stat := "14 (sleep) S 1" })]
    { net := fun type => if type = "tcp" then
        ["0: 00000000:0050 00000000:0000 0A 0:0 0:0 0 0 0 100",
          "1: 00000000:0016 00000000:0000 0A 0:0 0:0 0 0 0 200"] else [] }
    (by decide) (by decide)

/-- The listening sockets of both servers. -/
def serverSockets : List Socket :=
  [{ id := 100, type := "tcp", source := { port := 80 } },
    { id := 200, type := "tcp", source := { port := 22 } }]

/-- The manager that knows the first server. -/
def serverKnown : ServicesManager where
  services :=
    [{ name := "httpd"
       sockets := [{ id := 100, type := "tcp", source := { port := 80 } }]
       mainProcess := [detected forkingServers.toOsState 10] }]

/-- Two new services. -/
def twoServersPlan : Nat → Role
  | 10 => .merged (.new 0) "httpd"
  | 11 => .child (.new 0)
  | 12 => .merged (.new 1) "sshd"
  | _ => .ignored

/-- One service is known. -/
def forkingServersPlan : Nat → Role
  | 10 => .known 0 ["tcp://0.0.0.0:80"]
  | 11 => .child (.old 0)
  | 12 | 13 => .merged (.new 0) "sshd"
  | _ => .ignored

/-- The look at the known server, before and after the other visits. -/
theorem follows_serverKnown {os : OsState} {m : ServicesManager}
    (hnow : decision {} os serverSockets m 10 = .refresh 0)
    (hlisted : ∀ s ∈ m.services[0]?, ["tcp://0.0.0.0:80"] ⊆ s.sources ∧
      ∀ i ∈ serverSockets, (s.setSocketsOf os 10).haveSocket os i.id = true →
        i.getSource ∈ s.sources) :
    Follows {} os serverSockets serverKnown forkingServersPlan m 10 :=
  .known 0 _ rfl (by decide) hnow
    (fun s hs => finds_of_listed (hlisted s hs).1 (hlisted s hs).2)

end WatchedAgent.Proofs
