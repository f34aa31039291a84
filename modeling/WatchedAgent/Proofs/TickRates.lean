import Mathlib.Data.List.Chain
import WatchedAgent.Lib.Counters
import WatchedAgent.Model.Rates

/-!
# `WatchedAgent.Proofs.TickRates`: rates of counters that wrap

A `tickRessource` is handed the counters of the kernel as 32-bit numbers, some of which have
wrapped. Between two readings of a counter it may grow by less than `2 ^ 32`, and then the
difference of the numbers is what it has grown.

* `tick_rates`: every call stores the rate of its counter, whatever came between.
* `setRaw_rates`: the properties of a line after every pass.
-/

set_option autoImplicit false

namespace WatchedAgent.Proofs.TickRates

open WatchedAgent.Lib
open WatchedAgent.Lib.Counters
open WatchedAgent.Model

/-- A call on a `tickRessource`. The counter is the one of the kernel. -/
inductive TickCall where
  | nextValue (now : Int)
  | setTickValue (name : String) (counter : Nat)

/-- A ressource after a call, which is handed the counter modulo `2 ^ 32`. -/
def step (r : TickRessource) : TickCall → TickRessource
  | .nextValue now => r.nextValue now
  | .setTickValue name counter => r.setTickValue name (counter % 0x100000000)

/-- A new ressource after some calls. -/
def run (typeName : String) (size freq : Nat) (calls : List TickCall) : TickRessource :=
  calls.foldl step { typeName, size, freq }

/-- The readings of some calls. -/
def readings (calls : List TickCall) : List (String × Nat) :=
  calls.filterMap fun
    | .nextValue _ => none
    | .setTickValue name counter => some (name, counter)

/-- A counter does not go back, and grows by less than `2 ^ 32` from one reading to the next. -/
def Counts (counters : List Nat) : Prop :=
  counters.IsChain (fun a b => a ≤ b ∧ b < a + 0x100000000)

/-- The rate of a counter, which is zero at its first reading. -/
def rate (freq : Nat) (last : Option Nat) (counter : Nat) : Nat :=
  match last with
  | some last => (counter - last) / freq
  | none => 0

theorem readings_append (calls : List TickCall) (name : String) (counter : Nat) :
    readings (calls ++ [.setTickValue name counter]) = readings calls ++ [(name, counter)] := by
  unfold readings
  rw [List.filterMap_append]
  rfl

/-! ### A call -/

section Step
variable (r : TickRessource)

theorem size_step (c : TickCall) : (step r c).size = r.size := by
  cases c with
  | nextValue now => rfl
  | setTickValue name counter =>
      show (r.toRessource.setProperty name _).size = r.size
      unfold Ressource.setProperty
      split <;> rfl

theorem freq_step (c : TickCall) : (step r c).freq = r.freq := by
  cases c <;> rfl

/-- A sample that is made is not cut off. -/
theorem v_nextValue {r : TickRessource} (hsize : 0 < r.size) (now : Int) :
    ∃ v, (r.nextValue now).v = Json.insert "timestamp" (.int now) (r.v.headD []) :: v := by
  obtain ⟨n, hn⟩ : ∃ n, r.size = n + 1 := ⟨r.size - 1, by omega⟩
  refine ⟨r.v.take n, ?_⟩
  show (Json.insert "timestamp" (.int now) (r.v.headD []) :: r.v).take r.size = _
  rw [hn, List.take_succ_cons]

/-- A call on a ressource with a sample changes this one. -/
theorem v_setTickValue {r : TickRessource} {s : Sample} {v : List Sample} (hv : r.v = s :: v)
    (name : String) (value : Nat) : (r.setTickValue name value).v
      = Json.insert name (.int (r.tickValue name value)) s :: v := by
  show (r.toRessource.setProperty name (.int (r.tickValue name value))).v = _
  unfold Ressource.setProperty
  rw [hv]

theorem exists_sample_step {r : TickRessource} (hsize : 0 < r.size) (hv : ∃ s v, r.v = s :: v)
    (c : TickCall) : ∃ s v, (step r c).v = s :: v := by
  cases c with
  | nextValue now =>
      obtain ⟨v, hnext⟩ := v_nextValue hsize now
      exact ⟨_, v, hnext⟩
  | setTickValue name counter =>
      obtain ⟨s, v, hv⟩ := hv
      exact ⟨_, v, v_setTickValue hv name _⟩

end Step

/-! ### Runs -/

section Run
variable (typeName : String) (size freq : Nat)

theorem run_append (calls : List TickCall) (c : TickCall) :
    run typeName size freq (calls ++ [c]) = step (run typeName size freq calls) c := by
  unfold run
  rw [List.foldl_append, List.foldl_cons, List.foldl_nil]

theorem size_run (calls : List TickCall) : (run typeName size freq calls).size = size := by
  induction calls using List.reverseRecOn with
  | nil => rfl
  | append_singleton calls c ih => rw [run_append, size_step, ih]

theorem freq_run (calls : List TickCall) : (run typeName size freq calls).freq = freq := by
  induction calls using List.reverseRecOn with
  | nil => rfl
  | append_singleton calls c ih => rw [run_append, freq_step, ih]

/-- The last reading of each name is kept modulo `2 ^ 32`. -/
theorem old_run (calls : List TickCall) (name : String) :
    (run typeName size freq calls).old name
      = (lastReading (readings calls) name).map (· % 0x100000000) := by
  induction calls using List.reverseRecOn with
  | nil => rfl
  | append_singleton calls c ih =>
      rw [run_append]
      cases c with
      | nextValue now =>
          -- A `nextValue` reads nothing, and leaves the table alone.
          have hreadings : readings (calls ++ [.nextValue now]) = readings calls := by
            simp [readings]
          rw [hreadings]
          exact ih
      | setTickValue key counter =>
          rw [readings_append, lastReading_append]
          show Function.update _ key _ name = _
          by_cases hname : name = key
          · rw [if_pos hname, hname, Function.update_self]
            rfl
          · rw [if_neg hname, Function.update_of_ne hname, ih]

/-- The stored value is the rate, also where the counter wrapped. -/
theorem tickValue_run (calls : List TickCall) (name : String) (counter : Nat)
    (hcounts : Counts (readingsOf (readings (calls ++ [.setTickValue name counter])) name)) :
    (run typeName size freq calls).tickValue name (counter % 0x100000000)
      = rate freq (lastReading (readings calls) name) counter := by
  unfold TickRessource.tickValue
  rw [old_run, freq_run]
  cases hlast : lastReading (readings calls) name with
  | none => rfl
  | some last =>
      rw [readings_append, readingsOf_append, readingsOf_singleton, if_pos rfl] at hcounts
      -- The last reading and the new one are neighbours in the chain.
      have hstep := (List.isChain_append.mp hcounts).2.2 last
        (by rw [getLast?_readingsOf, hlast]; rfl) counter rfl
      show subUInt32 (counter % 0x100000000) (last % 0x100000000) / freq = (counter - last) / freq
      rw [subUInt32_mod hstep.1 hstep.2]

/-- After a first `nextValue` there is a sample. -/
theorem exists_sample {size : Nat} (hsize : 0 < size) (now : Int) (rest : List TickCall) :
    ∃ s v, (run typeName size freq (.nextValue now :: rest)).v = s :: v := by
  induction rest using List.reverseRecOn with
  | nil =>
      obtain ⟨v, hv⟩ := v_nextValue (r := { typeName, size, freq }) hsize now
      exact ⟨_, v, hv⟩
  | append_singleton rest c ih =>
      rw [← List.cons_append, run_append]
      exact exists_sample_step (by rw [size_run]; exact hsize) ih c

end Run

/-- For every frequency and all calls after a first `nextValue`, a `setTickValue` stores the
rate of its counter: zero at the first reading, and what the counter has grown since the
reading before divided by the frequency. -/
theorem tick_rates (typeName : String) (size freq : Nat) (now : Int) (rest : List TickCall)
    (name : String) (counter : Nat) (hcounts : ∀ key, Counts (readingsOf
      (readings (.nextValue now :: rest ++ [.setTickValue name counter])) key)) :
    let before := TickCall.nextValue now :: rest
    let value := rate freq (lastReading (readings before) name) counter
    (run typeName size freq before).tickValue name (counter % 0x100000000) = value ∧
      (0 < size → ∃ s v,
        (run typeName size freq (before ++ [.setTickValue name counter])).v = s :: v ∧
          s.lookup name = some (.int value)) := by
  have hvalue := tickValue_run typeName size freq _ name counter (hcounts name)
  refine ⟨hvalue, fun hsize => ?_⟩
  obtain ⟨s, v, hv⟩ := exists_sample typeName freq hsize now rest
  refine ⟨_, v, ?_, Json.lookup_insert_self name _ s⟩
  rw [run_append, ← hvalue]
  exact v_setTickValue hv name _

/-- A counter that wrapped, with another one between its readings. -/
theorem tick_rates_wrapped :
    (run "network_stat" 3 5 [.nextValue 0, .setTickValue "rbytes" 4294967290,
      .setTickValue "tbytes" 7]).tickValue "rbytes" (4294967390 % 0x100000000) = 20 :=
  (tick_rates "network_stat" 3 5 0 [.setTickValue "rbytes" 4294967290, .setTickValue "tbytes" 7]
    "rbytes" 4294967390 (by
      intro key
      unfold Counts
      by_cases hr : key = "rbytes"
      · subst hr
        decide
      · by_cases ht : key = "tbytes"
        · subst ht
          decide
        · simp [readings, readingsOf, Ne.symm hr, Ne.symm ht])).1

/-! ### Lines -/

/-- A pass: the time of its `nextValue`, and the numbers on its line. -/
structure LinePass where
  now : Int
  numbers : List Nat

namespace LinePass

/-- The number that a property is read from. -/
def counter (p : LinePass) (f : String × Nat) : Nat := p.numbers[f.2]?.getD 0

/-- The calls of a pass. -/
def calls (fields : List (String × Nat)) (p : LinePass) : List TickCall :=
  .nextValue p.now :: fields.map (fun f => .setTickValue f.1 (p.counter f))

end LinePass

/-- A new ressource after some passes. -/
def lineRun (fields : List (String × Nat)) (typeName : String) (size freq : Nat)
    (passes : List LinePass) : TickRessource :=
  passes.foldl (fun r p => (r.nextValue p.now).setRaw fields (p.numbers.map toString))
    { typeName, size, freq }

section Lines
variable {fields : List (String × Nat)}

theorem setRaw_eq (r : TickRessource) (p : LinePass) :
    r.setRaw fields (p.numbers.map toString)
      = (fields.map (fun f => TickCall.setTickValue f.1 (p.counter f))).foldl step r := by
  have hword : ∀ i, ServCpuCollector.wordValue (p.numbers.map toString) i
      = p.numbers[i]?.getD 0 % 0x100000000 := by
    intro i
    unfold ServCpuCollector.wordValue
    rw [List.getElem?_map]
    cases p.numbers[i]? with
    | none => decide
    | some n =>
        rw [Option.map_some, Option.getD_some, Text.atoi_nat]
        rfl
  unfold TickRessource.setRaw
  rw [List.foldl_map]
  refine List.foldl_ext _ _ _ fun r f _ => ?_
  rw [hword]
  rfl

theorem lineRun_eq (typeName : String) (size freq : Nat) (passes : List LinePass) :
    lineRun fields typeName size freq passes
      = run typeName size freq (passes.flatMap (LinePass.calls fields)) := by
  unfold lineRun run
  rw [List.foldl_flatMap]
  refine List.foldl_ext _ _ _ fun r p _ => ?_
  rw [setRaw_eq]
  rfl

/-- The properties around one of them are other properties. -/
theorem not_mem_around {pre post : List (String × Nat)} {f : String × Nat}
    (h : ((pre ++ f :: post).map Prod.fst).Nodup) :
    f.1 ∉ pre.map Prod.fst ∧ f.1 ∉ post.map Prod.fst := by
  rw [List.map_append, List.map_cons, List.perm_middle.nodup_iff, List.nodup_cons,
    List.mem_append, not_or] at h
  exact h.1

/-- The calls for other properties. -/
theorem readingsOf_others (p : LinePass) {name : String} (h : name ∉ fields.map Prod.fst) :
    readingsOf (readings (fields.map (fun f => .setTickValue f.1 (p.counter f)))) name = [] := by
  unfold readingsOf
  rw [List.map_eq_nil_iff, List.filter_eq_nil_iff]
  intro e he
  obtain ⟨c, hc, heq⟩ := List.mem_filterMap.mp he
  obtain ⟨f, hf, rfl⟩ := List.mem_map.mp hc
  rw [← Option.some.inj heq, decide_eq_true_eq]
  rintro rfl
  exact h (List.mem_map.mpr ⟨f, hf, rfl⟩)

/-- They leave the value of the property alone. -/
theorem lookup_others (p : LinePass) {name : String} (h : name ∉ fields.map Prod.fst)
    {r : TickRessource} {s : Sample} {v : List Sample} (hv : r.v = s :: v) :
    ∃ s', ((fields.map (fun f => TickCall.setTickValue f.1 (p.counter f))).foldl step r).v
      = s' :: v ∧ s'.lookup name = s.lookup name := by
  induction fields generalizing r s with
  | nil => exact ⟨s, hv, rfl⟩
  | cons f fields ih =>
      rw [List.map_cons, List.mem_cons, not_or] at h
      obtain ⟨s', hs', hlookup⟩ := ih h.2 (v_setTickValue hv f.1 (p.counter f % 0x100000000))
      exact ⟨s', hs', hlookup.trans (Json.lookup_insert_of_ne _ _ h.1)⟩

/-- A property is read once in a pass. -/
theorem readingsOf_calls (hfields : (fields.map Prod.fst).Nodup) {f : String × Nat}
    (hf : f ∈ fields) (p : LinePass) :
    readingsOf (readings (p.calls fields)) f.1 = [p.counter f] := by
  obtain ⟨pre, post, rfl⟩ := List.append_of_mem hf
  obtain ⟨hpre, hpost⟩ := not_mem_around hfields
  have hsplit : readings (p.calls (pre ++ f :: post))
      = readings (pre.map (fun f => .setTickValue f.1 (p.counter f))) ++
        ([(f.1, p.counter f)] ++ readings (post.map (fun f => .setTickValue f.1 (p.counter f)))) := by
    simp [LinePass.calls, readings]
  rw [hsplit, readingsOf_append, readingsOf_append, readingsOf_others p hpre,
    readingsOf_others p hpost, readingsOf_singleton, if_pos rfl]
  rfl

theorem readingsOf_passes (hfields : (fields.map Prod.fst).Nodup) {f : String × Nat}
    (hf : f ∈ fields) (passes : List LinePass) :
    readingsOf (readings (passes.flatMap (LinePass.calls fields))) f.1
      = passes.map (fun p => p.counter f) := by
  induction passes with
  | nil => rfl
  | cons p passes ih =>
      have hsplit : readings ((p :: passes).flatMap (LinePass.calls fields))
          = readings (p.calls fields) ++ readings (passes.flatMap (LinePass.calls fields)) := by
        unfold readings
        rw [List.flatMap_cons, List.filterMap_append]
      rw [hsplit, readingsOf_append, ih, readingsOf_calls hfields hf]
      rfl

/-- After every pass, the sample has the rate of each property, whose number is compared with
that of the pass before. -/
theorem setRaw_rates (hfields : (fields.map Prod.fst).Nodup) {f : String × Nat} (hf : f ∈ fields)
    (typeName : String) {size : Nat} (hsize : 0 < size) (freq : Nat) (passes : List LinePass)
    (p : LinePass) (hcounts : Counts ((passes ++ [p]).map (fun q => q.counter f))) :
    ∃ s v, (lineRun fields typeName size freq (passes ++ [p])).v = s :: v ∧
      s.lookup f.1
        = some (.int (rate freq ((passes.map (fun q => q.counter f)).getLast?) (p.counter f))) := by
  have hpasses := readingsOf_passes hfields hf passes
  obtain ⟨pre, post, rfl⟩ := List.append_of_mem hf
  obtain ⟨hpre, hpost⟩ := not_mem_around hfields
  -- The calls up to the one for `f`, and those after it.
  let sets (fields : List (String × Nat)) : List TickCall :=
    fields.map (fun f => .setTickValue f.1 (p.counter f))
  let before := passes.flatMap (LinePass.calls (pre ++ f :: post)) ++ .nextValue p.now :: sets pre
  have hcalls : (passes ++ [p]).flatMap (LinePass.calls (pre ++ f :: post))
      = before ++ [.setTickValue f.1 (p.counter f)] ++ sets post := by
    simp [before, sets, LinePass.calls]
  have hread : readingsOf (readings before) f.1 = passes.map (fun q => q.counter f) := by
    have hreadings : readings before
        = readings (passes.flatMap (LinePass.calls (pre ++ f :: post))) ++ readings (sets pre) := by
      unfold readings
      rw [List.filterMap_append]
      rfl
    rw [hreadings, readingsOf_append, hpasses, readingsOf_others p hpre, List.append_nil]
  have hvalue := tickValue_run typeName size freq before f.1 (p.counter f) (by
      rw [readings_append, readingsOf_append, hread, readingsOf_singleton, if_pos rfl]
      rw [List.map_append] at hcounts
      exact hcounts)
  rw [← getLast?_readingsOf, hread] at hvalue
  obtain ⟨s, v, hv⟩ : ∃ s v, (run typeName size freq before).v = s :: v := by
    let start := run typeName size freq (passes.flatMap (LinePass.calls (pre ++ f :: post)))
    have hstart : 0 < start.size := by
      rw [size_run]
      exact hsize
    obtain ⟨v, hnext⟩ := v_nextValue hstart p.now
    obtain ⟨s, hs, -⟩ := lookup_others p hpre hnext
    refine ⟨s, v, ?_⟩
    unfold run
    rw [List.foldl_append]
    exact hs
  obtain ⟨s', hs', hlookup⟩ := lookup_others p hpost
    (v_setTickValue hv f.1 (p.counter f % 0x100000000))
  refine ⟨s', v, ?_, ?_⟩
  · rw [lineRun_eq, hcalls]
    unfold run
    rw [List.foldl_append, List.foldl_append]
    exact hs'
  · rw [hlookup, Json.lookup_insert_self, hvalue]

end Lines

/-- Each of the two collectors sets distinct properties. -/
theorem nodup_fields : (netDevFields.map Prod.fst).Nodup ∧ (diskStatsFields.map Prod.fst).Nodup :=
  ⟨by decide, by decide⟩

end WatchedAgent.Proofs.TickRates
