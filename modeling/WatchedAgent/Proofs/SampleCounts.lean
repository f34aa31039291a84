import WatchedAgent.Model.Counting

/-!
# `WatchedAgent.Proofs.SampleCounts`: the count of the samples

`SelfCollector` publishes `add - del` of `values_count` as the number of samples. `Exact` says
that it is the number of samples which the live ressources hold, in the 32 bits of the counter.
`nextValue` counts what it inserts and what it cuts off, whatever the size is. The destructor
counts the ressource, but not the samples it still holds.

`always_exact_iff`: the figure is exact throughout a run if and only if every ressource that is
destroyed holds no samples, or a multiple of `2 ^ 32` of them.
-/

set_option autoImplicit false

namespace WatchedAgent.Proofs

open WatchedAgent.Lib
open WatchedAgent.Lib.Run (Always Meets)
open WatchedAgent.Model

namespace SampleCounts

open WatchedAgent.Model.Counting

/-- The figure is the number of samples of the live ressources. -/
def Exact (s : State) : Prop :=
  s.globalCounters.figure "values_count" = s.total % 0x100000000

instance (s : State) : Decidable (Exact s) := inferInstanceAs (Decidable (_ = _))

/-- A ressource that is destroyed holds nothing. -/
def Emptied (s : State) : Event → Prop
  | .destroy i => ∀ r, s.live i = some r → r.v.length % 0x100000000 = 0
  | _ => True

/-- The collector publishes the figure of each counter. -/
theorem mem_collected {g : GlobalCounters} (hsorted : OrderedMap.Sorted g) {key : String}
    {c : Counter} (hc : (key, c) ∈ g) :
    Collecting.setOf "values" key (.int (g.figure key)) ∈ g.collected := by
  have hcounter : g.counter key = c := by
    unfold GlobalCounters.counter
    rw [OrderedMap.lookup_of_mem hsorted hc]
    rfl
  unfold GlobalCounters.collected GlobalCounters.figure
  rw [hcounter]
  exact List.mem_flatMap.mpr ⟨_, hc, List.mem_cons_self⟩

/-- The sum after one entry was replaced. -/
theorem sum_map_set {α : Type} (f : α → Nat) (l : List α) {i : Nat} {a : α}
    (h : l[i]? = some a) (b : α) :
    ((l.set i b).map f).sum + f a = (l.map f).sum + f b := by
  induction l generalizing i with
  | nil => exact absurd h (by simp)
  | cons c l ih =>
      cases i with
      | zero =>
          obtain rfl : c = a := Option.some.inj h
          rw [List.set_cons_zero, List.map_cons, List.map_cons, List.sum_cons, List.sum_cons]
          omega
      | succ i =>
          have hrest := ih h
          rw [List.set_cons_succ, List.map_cons, List.map_cons, List.sum_cons, List.sum_cons]
          omega

/-- What a state keeps: the numbers of added and dropped samples balance, and `del` fits. -/
structure Balanced (s : State) : Prop where
  add_eq : (s.globalCounters.counter "values_count").add % 0x100000000
    = (s.total + (s.globalCounters.counter "values_count").del) % 0x100000000
  del_lt : (s.globalCounters.counter "values_count").del < 0x100000000

/-- In a balanced state the figure is exact. -/
theorem exact_of_balanced {s : State} (h : Balanced s) : Exact s := by
  obtain ⟨hadd, hdel⟩ := h
  unfold Exact GlobalCounters.figure subUInt32
  omega

/-- `nextValue` counts one sample in, and out what is beyond the size. -/
theorem counter_nextValue (now : Int) {g : GlobalCounters}
    (hdel : (g.counter "values_count").del < 0x100000000) (r : Ressource) :
    (nextValue now g r).1.counter "values_count" =
      { add := ((g.counter "values_count").add + 1) % 0x100000000
        del := ((g.counter "values_count").del + (r.v.length + 1 - r.size)) % 0x100000000 } := by
  unfold nextValue
  dsimp only
  rw [List.length_cons]
  split
  · rw [GlobalCounters.counter_countDel, if_pos rfl, GlobalCounters.counter_countAdd, if_pos rfl]
  · rename_i h
    dsimp only
    have hkept : ((g.counter "values_count").del + (r.v.length + 1 - r.size)) % 0x100000000
        = (g.counter "values_count").del := by omega
    rw [GlobalCounters.counter_countAdd, if_pos rfl, hkept]

theorem length_nextValue (now : Int) (r : Ressource) :
    (r.nextValue now).v.length = min r.size (r.v.length + 1) := by
  unfold Ressource.nextValue
  dsimp only
  rw [List.length_take, List.length_cons]

/-- The total after one ressource was replaced. -/
theorem total_set {s : State} {i : Nat} {r : Ressource} (h : s.live i = some r)
    (g : GlobalCounters) (b : Option Ressource) :
    State.total { globalCounters := g, ressources := s.ressources.set i b } + r.v.length
      = s.total + held b :=
  sum_map_set held s.ressources (Option.join_eq_some_iff.mp h) b

/-- The destructor counts no samples. -/
theorem counter_destroy (g : GlobalCounters) :
    (g.countDel "ressource" 1).counter "values_count" = g.counter "values_count" := by
  rw [GlobalCounters.counter_countDel, if_neg (by decide)]

/-- A destruction leaves the counter and takes the samples. -/
theorem destroy_spec {s : State} {i : Nat} {r : Ressource}
    (h : s.live i = some r) :
    (step s (.destroy i)).globalCounters.counter "values_count"
      = s.globalCounters.counter "values_count" ∧
    (step s (.destroy i)).total + r.v.length = s.total := by
  unfold step
  dsimp only
  rw [h]
  exact ⟨counter_destroy _, total_set h _ none⟩

/-- An event keeps the balance if what it destroys is empty. -/
theorem balanced_step (s : State) (e : Event) (h : Balanced s) (he : Emptied s e) :
    Balanced (step s e) := by
  obtain ⟨hadd, hdel⟩ := h
  cases e with
  | construct p_size p_typeName =>
      have htotal : (step s (.construct p_size p_typeName)).total = s.total := by
        unfold step State.total
        rw [List.map_append, List.sum_append]
        rfl
      have hcounter : (step s (.construct p_size p_typeName)).globalCounters.counter "values_count"
          = s.globalCounters.counter "values_count" := by
        unfold step
        rw [GlobalCounters.counter_countAdd, if_neg (by decide)]
      exact ⟨by rw [hcounter, htotal]; exact hadd, by rw [hcounter]; exact hdel⟩
  | nextValue i now =>
      unfold step
      dsimp only
      split
      · rename_i r hr
        have hcounter := counter_nextValue now hdel r
        have htotal := total_set hr (nextValue now s.globalCounters r).1
          (some (nextValue now s.globalCounters r).2)
        have hlength : held (some (nextValue now s.globalCounters r).2)
            = min r.size (r.v.length + 1) := by
          rw [nextValue_snd]
          exact length_nextValue now r
        constructor
        · rw [hcounter]
          dsimp only
          omega
        · rw [hcounter]
          exact Nat.mod_lt _ (by decide)
      · exact ⟨hadd, hdel⟩
  | destroy i =>
      cases hr : s.live i with
      | none =>
          unfold step
          dsimp only
          rw [hr]
          exact ⟨hadd, hdel⟩
      | some r =>
          obtain ⟨hcounter, htotal⟩ := destroy_spec hr
          have hempty := he r hr
          exact ⟨by rw [hcounter]; omega, by rw [hcounter]; exact hdel⟩

/-- A ressource that is destroyed with samples leaves a figure that is wrong. -/
theorem not_exact_step (s : State) (e : Event) (h : Balanced s) (he : ¬ Emptied s e) :
    ¬ Exact (step s e) := by
  cases e with
  | construct p_size p_typeName => exact absurd trivial he
  | nextValue i now => exact absurd trivial he
  | destroy i =>
      unfold Emptied at he
      rw [not_forall] at he
      obtain ⟨r, he⟩ := he
      obtain ⟨hr, hsome⟩ := Classical.not_imp.mp he
      obtain ⟨hcounter, htotal⟩ := destroy_spec hr
      have hexact := exact_of_balanced h
      unfold Exact GlobalCounters.figure at hexact ⊢
      rw [hcounter, hexact]
      -- The total falls by a number that the 32 bits do not hide.
      omega

/-- In every run of constructions, `nextValue` calls and destructions, the figure published as
`values_count` is the number of samples of the live ressources throughout, if and only if every
ressource that is destroyed is empty. -/
theorem always_exact_iff (es : List Event) :
    Always step Exact {} es ↔ Meets step Emptied {} es :=
  Run.always_iff_meets (fun _ => exact_of_balanced) balanced_step not_exact_step {} es
    ⟨rfl, by decide⟩

/-- The figure stays at 1 when a ressource is destroyed with its sample. -/
theorem not_always_exact :
    ¬ Always step Exact {} [.construct 150 "cpu", .nextValue 0 0, .destroy 0] := by
  intro h
  have hlast : ¬ Exact (Run.exec step {} [.construct 150 "cpu", .nextValue 0 0, .destroy 0]) := by
    decide +kernel
  exact hlast h.2.2.2

end SampleCounts

end WatchedAgent.Proofs
