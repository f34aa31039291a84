import WatchedAgent.Model.HostCollectors
import WatchedAgent.Lib.Run
import WatchedAgent.Proofs.TickRates

/-!
# `WatchedAgent.Proofs.DeviceRates`: from the files of the kernel to the rates of a device

`/proc/net/dev` has a line for each network interface, and `/proc/diskstats` one for each disk.
The collectors find the ressource of a device by its name, make it when there is none, and hand
it the numbers of the line. Devices come and go, and the lines change their order.

* `lookups_lineRun`: the samples of one ressource hold the rates of its counters.
* `Inv`: each ressource is the one that was handed the lines of its device alone.
* `netdev_rates` and `diskstats_rates`: so after any passes over the texts the kernel writes, the
  samples of a device are the rates of its own lines, the newest first.
-/

set_option autoImplicit false

namespace WatchedAgent.Proofs.DeviceRates

open WatchedAgent.Lib
open WatchedAgent.Lib.Run (exec)
open WatchedAgent.Lib.Text
open WatchedAgent.Model
open WatchedAgent.Model.Collecting
open WatchedAgent.Proofs.TickRates

/-! ### The samples of one ressource -/

/-- The rates of a counter at its readings. -/
def rates (freq : Nat) (counters : List Nat) : List Nat :=
  List.zipWith (rate freq) (none :: counters.map some) counters

theorem rates_append (freq : Nat) (counters : List Nat) (c : Nat) :
    rates freq (counters ++ [c]) = rates freq counters ++ [rate freq counters.getLast? c] := by
  have hlast : ∀ (before : Option Nat) (counters : List Nat),
      List.zipWith (rate freq) (before :: (counters ++ [c]).map some) (counters ++ [c])
        = List.zipWith (rate freq) (before :: counters.map some) counters
          ++ [rate freq (counters.getLast?.or before) c] := by
    intro before counters
    induction counters generalizing before with
    | nil => rfl
    | cons d counters ih =>
        have hor : (counters.getLast?.or (some d)) = ((d :: counters).getLast?.or before) := by
          cases hrest : counters.getLast? with
          | none =>
              obtain rfl := List.getLast?_eq_none_iff.mp hrest
              rfl
          | some e => rw [List.getLast?_cons, hrest]; rfl
        show rate freq before d :: List.zipWith (rate freq) (some d :: (counters ++ [c]).map some)
          (counters ++ [c]) = _
        rw [ih (some d), hor]
        rfl
  have h := hlast none counters
  rw [Option.or_none] at h
  exact h

/-- Handing over a line leaves the older samples alone. -/
theorem tail_setRaw {fields : List (String × Nat)} {r : TickRessource} (raw : List String)
    (hv : r.v ≠ []) : (r.setRaw fields raw).v.tail = r.v.tail ∧ (r.setRaw fields raw).v ≠ [] := by
  unfold TickRessource.setRaw
  induction fields generalizing r with
  | nil => exact ⟨rfl, hv⟩
  | cons f fields ih =>
      obtain ⟨s, v, hsv⟩ := List.exists_cons_of_ne_nil hv
      have hset := v_setTickValue hsv f.1 (ServCpuCollector.wordValue raw f.2)
      obtain ⟨htail, hne⟩ := ih (r := r.setTickValue f.1 (ServCpuCollector.wordValue raw f.2))
        (by rw [hset]; exact List.cons_ne_nil _ _)
      rw [List.foldl_cons]
      exact ⟨by rw [htail, hset, hsv]; rfl, hne⟩

theorem size_setRaw (fields : List (String × Nat)) (raw : List String) (r : TickRessource) :
    (r.setRaw fields raw).size = r.size ∧ (r.setRaw fields raw).freq = r.freq := by
  unfold TickRessource.setRaw
  induction fields generalizing r with
  | nil => exact ⟨rfl, rfl⟩
  | cons f fields ih =>
      have hsize : (r.setTickValue f.1 (ServCpuCollector.wordValue raw f.2)).size = r.size := by
        show (r.toRessource.setProperty f.1 _).size = r.size
        unfold Ressource.setProperty
        split <;> rfl
      obtain ⟨hs, hf⟩ := ih (r.setTickValue f.1 (ServCpuCollector.wordValue raw f.2))
      exact ⟨hs.trans hsize, hf⟩

/-- A new ressource after one more pass. -/
theorem lineRun_append (fields : List (String × Nat)) (typeName : String) (size freq : Nat)
    (passes : List LinePass) (p : LinePass) : lineRun fields typeName size freq (passes ++ [p])
      = ((lineRun fields typeName size freq passes).nextValue p.now).setRaw fields
          (p.numbers.map toString) := by
  unfold lineRun
  rw [List.foldl_append]
  rfl

theorem size_lineRun (fields : List (String × Nat)) (typeName : String) (size freq : Nat)
    (passes : List LinePass) : (lineRun fields typeName size freq passes).size = size ∧
      (lineRun fields typeName size freq passes).freq = freq := by
  induction passes using List.reverseRecOn with
  | nil => exact ⟨rfl, rfl⟩
  | append_singleton passes p ih =>
      rw [lineRun_append]
      obtain ⟨hs, hf⟩ := size_setRaw fields (p.numbers.map toString)
        ((lineRun fields typeName size freq passes).nextValue p.now)
      exact ⟨hs.trans ih.1, hf.trans ih.2⟩

/-- A pass adds one sample, and drops what is beyond the size. -/
theorem tail_lineRun {fields : List (String × Nat)} {typeName : String} {size : Nat}
    (hsize : 0 < size) (freq : Nat) (passes : List LinePass) (p : LinePass) :
    (lineRun fields typeName size freq (passes ++ [p])).v.tail
      = (lineRun fields typeName size freq passes).v.take (size - 1) := by
  let r := lineRun fields typeName size freq passes
  have hr : r.size = size := (size_lineRun fields typeName size freq passes).1
  have hnext : (r.nextValue p.now).v
      = Json.insert "timestamp" (.int p.now) (r.v.headD []) :: r.v.take (size - 1) := by
    show (Json.insert "timestamp" (.int p.now) (r.v.headD []) :: r.v).take r.size = _
    obtain ⟨n, rfl⟩ : ∃ n, size = n + 1 := ⟨size - 1, by omega⟩
    rw [hr, List.take_succ_cons, Nat.add_sub_cancel]
  rw [lineRun_append]
  have hne : (r.nextValue p.now).v ≠ [] := by
    rw [hnext]
    exact List.cons_ne_nil _ _
  rw [(tail_setRaw (p.numbers.map toString) hne).1, hnext, List.tail_cons]

/-- The samples of a ressource hold the rates of a counter, the newest first. -/
theorem lookups_lineRun {fields : List (String × Nat)} (hfields : (fields.map Prod.fst).Nodup)
    {f : String × Nat} (hf : f ∈ fields) (typeName : String) {size : Nat} (hsize : 0 < size)
    (freq : Nat) {passes : List LinePass} (hcounts : Counts (passes.map (fun p => p.counter f))) :
    (lineRun fields typeName size freq passes).v.map (fun s => s.lookup f.1)
      = ((rates freq (passes.map (fun p => p.counter f))).reverse.take size).map
          (fun n => some (.int n)) := by
  induction passes using List.reverseRecOn with
  | nil =>
      show [] = (([] : List Nat).take size).map _
      rw [List.take_nil, List.map_nil]
  | append_singleton passes p ih =>
      have hbefore : Counts (passes.map (fun p => p.counter f)) := by
        rw [List.map_append] at hcounts
        exact (List.isChain_append.mp hcounts).1
      obtain ⟨s, v, hv, hlookup⟩ := setRaw_rates hfields hf typeName hsize freq passes p hcounts
      have htail : (lineRun fields typeName size freq (passes ++ [p])).v.tail
          = (lineRun fields typeName size freq passes).v.take (size - 1) :=
        tail_lineRun hsize freq passes p
      rw [hv, List.tail_cons] at htail
      obtain ⟨n, rfl⟩ : ∃ n, size = n + 1 := ⟨size - 1, by omega⟩
      rw [hv, List.map_cons, hlookup, htail, List.map_take, ih hbefore, Nat.add_sub_cancel,
        List.map_append, List.map_singleton, rates_append, List.reverse_append,
        List.reverse_singleton, List.singleton_append, List.take_succ_cons, List.map_cons,
        List.map_take, List.map_take, List.take_take, Nat.min_eq_left (Nat.le_succ n)]

/-! ### The events of a line -/

/-- A line as a collector takes it: the device, the words, and the numbers they spell at the
places that are read. -/
structure Row (fields : List (String × Nat)) where
  id : String
  raw : List String
  numbers : List Nat
  words : ∀ f ∈ fields, raw[f.2]?.getD "" = (numbers.map toString)[f.2]?.getD ""

section Rows
variable (real : Option ℚ → Json) {fields : List (String × Nat)} (typeName : String)
  {history freq : Nat}

/-- The turn of a collector. -/
def Row.events (row : Row fields) : List Collecting.Event :=
  [.addRessource row.id (.tick typeName), nextOf row.id] ++ setTicks row.id fields row.raw

/-- Only the words that are read matter. -/
theorem Row.setRaw_eq (row : Row fields) (r : TickRessource) :
    r.setRaw fields row.raw = r.setRaw fields (row.numbers.map toString) := by
  unfold TickRessource.setRaw ServCpuCollector.wordValue
  refine List.foldl_ext _ _ _ fun r f hf => ?_
  rw [row.words f hf]

/-- The properties of a line are set in the newest sample. -/
theorem exec_setTicks {s : State} (hmode : s.mode = .running) {id : String} {r : TickRessource}
    (hr : s.ressources id = some (.tick r)) (hv : r.v ≠ []) (hfreq : r.freq ≠ 0)
    (fields : List (String × Nat)) (raw : List String) :
    exec (State.step real) s (setTicks id fields raw)
      = { s with
          steps := s.steps + fields.length
          ressources := Function.update s.ressources id (some (.tick (r.setRaw fields raw))) } := by
  induction fields generalizing s r with
  | nil =>
      show s = { s with steps := s.steps, ressources := _ }
      rw [show r.setRaw [] raw = r from rfl, ← hr, Function.update_eq_self]
  | cons f fields ih =>
      let value := ServCpuCollector.wordValue raw f.2
      let r' := r.setTickValue f.1 value
      let s' : State :=
        { s with
          steps := s.steps + 1
          ressources := Function.update s.ressources id (some (.tick r')) }
      have hstep : State.step real s (.call id (.setTickValue f.1 value)) = s' := by
        have hcall : (Series.tick r).call real (s.clock (s.steps + 1)) (.setTickValue f.1 value)
            = some (.tick r') := if_neg fun h => h.elim hv fun h => hfreq h.2
        have hactive : State.active { s with steps := s.steps + 1 } = true := by
          unfold State.active
          rw [hmode]
          rfl
        unfold State.step
        dsimp only
        rw [if_pos hactive]
        unfold State.act State.call
        dsimp only
        rw [hr, Option.bind_some, hcall]
      obtain ⟨x, v, hxv⟩ := List.exists_cons_of_ne_nil hv
      have hv' : r'.v ≠ [] := by
        rw [v_setTickValue hxv]
        exact List.cons_ne_nil _ _
      have hr' : s'.ressources id = some (.tick r') := Function.update_self _ _ _
      show exec (State.step real) (State.step real s (.call id (.setTickValue f.1 value)))
        (setTicks id fields raw) = _
      rw [hstep, ih (s := s') hmode hr' hv' hfreq]
      show { s' with steps := _, ressources := _ } = { s with steps := _, ressources := _ }
      dsimp only [s']
      rw [Function.update_idem, List.length_cons, Nat.add_assoc, Nat.add_comm 1]
      rfl

/-- After the first event of a line there is a ressource for the device. -/
theorem step_addRessource {s : State} (hmode : s.mode = .running) {id : String} {r : TickRessource}
    (hhistory : s.history < 0x100000000) (hfreq : s.pollFrequency < 0x100000000)
    (hr : s.ressources id = some (.tick r) ∨ s.ressources id = none ∧
      r = { typeName, size := s.history, freq := s.pollFrequency }) :
    State.step real s (.addRessource id (.tick typeName))
      = { s with
          steps := s.steps + 1
          ressources := Function.update s.ressources id (some (.tick r)) } := by
  have hactive : State.active { s with steps := s.steps + 1 } = true := by
    unfold State.active
    rw [hmode]
    rfl
  unfold State.step
  dsimp only
  rw [if_pos hactive]
  unfold State.act
  dsimp only
  rcases hr with hr | ⟨hr, rfl⟩
  · rw [hr, Option.isSome_some, if_pos rfl, ← hr, Function.update_eq_self]
  · have hmake : State.make { s with steps := s.steps + 1 } (.tick typeName)
        = some (.tick { typeName, size := s.history, freq := s.pollFrequency }) := by
      simp [State.make, asUInt, hhistory, hfreq]
    rw [hr, Option.isSome_none, if_neg Bool.false_ne_true]
    unfold State.assign
    rw [hmake]

/-- A sample is made. -/
theorem step_nextOf {s : State} (hmode : s.mode = .running) {id : String} {r : TickRessource}
    (hr : s.ressources id = some (.tick r)) :
    State.step real s (nextOf id)
      = { s with
          steps := s.steps + 1
          ressources := Function.update s.ressources id
            (some (.tick (r.nextValue (s.clock (s.steps + 1))))) } := by
  have hactive : State.active { s with steps := s.steps + 1 } = true := by
    unfold State.active
    rw [hmode]
    rfl
  unfold State.step nextOf
  dsimp only
  rw [if_pos hactive]
  unfold State.act State.call
  dsimp only
  rw [hr]
  rfl

/-- The turn of a collector makes a sample of the device, and fills it from the line. -/
theorem exec_row {s : State} (hmode : s.mode = .running) (hsize : 0 < s.history)
    (hhistory : s.history < 0x100000000) (hzero : 0 < s.pollFrequency)
    (hfreq : s.pollFrequency < 0x100000000) (row : Row fields) {r : TickRessource}
    (hr : s.ressources row.id = some (.tick r) ∨ s.ressources row.id = none ∧
      r = { typeName, size := s.history, freq := s.pollFrequency })
    (hrsize : r.size = s.history) (hrfreq : r.freq = s.pollFrequency) :
    ∃ now steps, exec (State.step real) s (row.events typeName)
      = { s with
          steps := steps
          ressources := Function.update s.ressources row.id
            (some (.tick ((r.nextValue now).setRaw fields (row.numbers.map toString)))) } := by
  let made : State :=
    { s with
      steps := s.steps + 1
      ressources := Function.update s.ressources row.id (some (.tick r)) }
  let r' := r.nextValue (s.clock (s.steps + 2))
  let next : State :=
    { s with
      steps := s.steps + 2
      ressources := Function.update s.ressources row.id (some (.tick r')) }
  have hmade := step_addRessource real typeName hmode hhistory hfreq hr
  have hnext : State.step real made (nextOf row.id) = next := by
    rw [step_nextOf real (s := made) hmode (Function.update_self _ _ _)]
    show { s with steps := _, ressources := _ } = { s with steps := _, ressources := _ }
    rw [Function.update_idem]
  have hv : r'.v ≠ [] := by
    obtain ⟨v, hv⟩ := v_nextValue (r := r) (by omega) (s.clock (s.steps + 2))
    rw [hv]
    exact List.cons_ne_nil _ _
  refine ⟨s.clock (s.steps + 2), next.steps + fields.length, ?_⟩
  show exec (State.step real) (State.step real (State.step real s _) (nextOf row.id))
    (setTicks row.id fields row.raw) = _
  rw [hmade]
  show exec (State.step real) (State.step real made (nextOf row.id)) _ = _
  rw [hnext, exec_setTicks real (s := next) hmode (Function.update_self _ _ _) hv
    (show r.freq ≠ 0 by omega), row.setRaw_eq]
  show { s with steps := _, ressources := _ } = { s with steps := _, ressources := _ }
  rw [Function.update_idem]

/-! ### Passes over lines -/

/-- Each ressource was handed the lines of its device, and nothing else. -/
structure Inv (history freq : Nat) (done : List (Row fields)) (s : State) : Prop where
  running : s.mode = .running
  size : s.history = history
  pollFrequency : s.pollFrequency = freq
  ressources : ∀ id, ∃ passes : List LinePass,
    passes.map (·.numbers) = (done.filter (fun row => row.id = id)).map (·.numbers) ∧
      s.ressources id = if passes = [] then none
        else some (.tick (lineRun fields typeName history freq passes))

/-- A line goes to the ressource of its device. -/
theorem inv_row {done : List (Row fields)} {s : State} (hinv : Inv typeName history freq done s)
    (hhistory : 0 < history ∧ history < 0x100000000) (hfreq : 0 < freq ∧ freq < 0x100000000)
    (row : Row fields) :
    Inv typeName history freq (done ++ [row]) (exec (State.step real) s (row.events typeName)) := by
  obtain ⟨passes, hpasses, hr⟩ := hinv.ressources row.id
  let r := lineRun fields typeName history freq passes
  obtain ⟨hrsize, hrfreq⟩ := size_lineRun fields typeName history freq passes
  have hbefore : s.ressources row.id = some (.tick r) ∨ s.ressources row.id = none ∧
      r = { typeName, size := s.history, freq := s.pollFrequency } := by
    by_cases hnil : passes = []
    · rw [if_pos hnil] at hr
      refine .inr ⟨hr, ?_⟩
      show lineRun fields typeName history freq passes = _
      rw [hnil, hinv.size, hinv.pollFrequency]
      rfl
    · rw [if_neg hnil] at hr
      exact .inl hr
  obtain ⟨now, steps, hexec⟩ := exec_row real typeName hinv.running (by rw [hinv.size]; exact hhistory.1)
    (by rw [hinv.size]; exact hhistory.2) (by rw [hinv.pollFrequency]; exact hfreq.1)
    (by rw [hinv.pollFrequency]; exact hfreq.2) row hbefore (hrsize.trans hinv.size.symm)
    (hrfreq.trans hinv.pollFrequency.symm)
  rw [hexec]
  refine ⟨hinv.running, hinv.size, hinv.pollFrequency, fun id => ?_⟩
  by_cases hid : id = row.id
  · subst hid
    refine ⟨passes ++ [{ now, numbers := row.numbers }], ?_, ?_⟩
    · rw [List.map_append, hpasses, List.filter_append, List.map_append]
      simp
    · rw [if_neg (by simp), lineRun_append]
      exact Function.update_self _ _ _
  · obtain ⟨passes, hpasses, hr⟩ := hinv.ressources id
    refine ⟨passes, ?_, ?_⟩
    · rw [hpasses, List.filter_append]
      simp [Ne.symm hid]
    · exact (Function.update_of_ne hid _ _).trans hr

/-- The lines of a pass. -/
theorem inv_rows {done : List (Row fields)} {s : State} (hinv : Inv typeName history freq done s)
    (hhistory : 0 < history ∧ history < 0x100000000) (hfreq : 0 < freq ∧ freq < 0x100000000)
    (rows : List (Row fields)) :
    Inv typeName history freq (done ++ rows)
      (exec (State.step real) s (rows.flatMap (Row.events typeName))) := by
  induction rows generalizing done s with
  | nil =>
      rw [List.append_nil]
      exact hinv
  | cons row rows ih =>
      rw [List.flatMap_cons, Run.exec_append, List.append_cons]
      exact ih (inv_row real typeName hinv hhistory hfreq row)

/-- The passes of a collector. -/
theorem inv_passes {done : List (Row fields)} {s : State} (hinv : Inv typeName history freq done s)
    (hhistory : 0 < history ∧ history < 0x100000000) (hfreq : 0 < freq ∧ freq < 0x100000000)
    (passes : List (List (Row fields))) :
    Inv typeName history freq (done ++ passes.flatten) (exec (State.step real) s
      (passes.flatMap (fun rows => .pass :: rows.flatMap (Row.events typeName)))) := by
  induction passes generalizing done s with
  | nil =>
      rw [List.flatten_nil, List.append_nil]
      exact hinv
  | cons rows passes ih =>
      have hstep : State.step real s .pass = { s with steps := s.steps + 1 } := by
        show (if s.mode = .thrown then _ else _) = _
        rw [if_neg (by rw [hinv.running]; decide)]
      have hpass : Inv typeName history freq done (State.step real s .pass) := by
        rw [hstep]
        exact ⟨hinv.running, hinv.size, hinv.pollFrequency, hinv.ressources⟩
      rw [List.flatMap_cons, Run.exec_append, List.flatten_cons, ← List.append_assoc]
      exact ih (inv_rows real typeName hpass hhistory hfreq rows)

/-- A collector that constructs nothing. -/
theorem inv_built (clock : Nat → Int) : Inv typeName history freq ([] : List (Row fields))
    (State.step real { history, pollFrequency := freq, clock } .built) :=
  ⟨rfl, rfl, rfl, fun _ => ⟨[], rfl, rfl⟩⟩

/-- The samples of the ressource with that name. -/
def samples (s : State) (id : String) : List Sample :=
  match s.ressources id with
  | some (.tick r) => r.v
  | _ => []

/-- The samples of a device hold the rates of its lines. -/
theorem lookups_of_inv (hfields : (fields.map Prod.fst).Nodup) {f : String × Nat} (hf : f ∈ fields)
    {done : List (Row fields)} {s : State} (hinv : Inv typeName history freq done s)
    (hhistory : 0 < history) (id : String) (hcounts : Counts
      ((done.filter (fun row => row.id = id)).map (fun row => row.numbers[f.2]?.getD 0))) :
    (samples s id).map (fun sample => sample.lookup f.1)
      = ((rates freq ((done.filter (fun row => row.id = id)).map
          (fun row => row.numbers[f.2]?.getD 0))).reverse.take history).map
            (fun n => some (.int n)) := by
  obtain ⟨passes, hpasses, hr⟩ := hinv.ressources id
  have hcounters : passes.map (fun p => p.counter f)
      = (done.filter (fun row => row.id = id)).map (fun row => row.numbers[f.2]?.getD 0) := by
    have h := congrArg (List.map (fun numbers : List Nat => numbers[f.2]?.getD 0)) hpasses
    rw [List.map_map, List.map_map] at h
    exact h
  rw [← hcounters] at hcounts ⊢
  rw [← lookups_lineRun hfields hf typeName hhistory freq hcounts]
  unfold samples
  rw [hr]
  split <;> rename_i heq
  · rename_i r
    by_cases hnil : passes = []
    · rw [if_pos hnil] at heq
      exact absurd heq (by simp)
    · rw [if_neg hnil] at heq
      rw [Series.tick.inj (Option.some.inj heq)]
  · by_cases hnil : passes = []
    · rw [hnil]
      rfl
    · rw [if_neg hnil] at heq
      exact absurd rfl (heq _)

/-- The ressource of a device is there as soon as it has had a line. -/
theorem isSome_of_inv {done : List (Row fields)} {s : State}
    (hinv : Inv typeName history freq done s) (id : String) :
    (s.ressources id).isSome ↔ done.filter (fun row => row.id = id) ≠ [] := by
  obtain ⟨passes, hpasses, hr⟩ := hinv.ressources id
  have hnil : passes = [] ↔ done.filter (fun row => row.id = id) = [] := by
    rw [← List.map_eq_nil_iff, hpasses, List.map_eq_nil_iff]
  rw [hr, ne_eq, ← hnil]
  by_cases h : passes = []
  · rw [if_pos h, Option.isSome_none]
    exact iff_of_false Bool.false_ne_true (not_not.mpr h)
  · rw [if_neg h, Option.isSome_some]
    exact iff_of_true rfl h

/-- A collector whose constructor does nothing, and whose passes hand over the lines of files. -/
theorem inv_events {α : Type} (plugin : Plugin) (input : α → plugin.Input)
    (rows : α → List (Row fields)) (hconstruct : plugin.construct real = [])
    (hcollect : ∀ file, plugin.collect real (input file) = (rows file).flatMap (Row.events typeName))
    (hhistory : 0 < history ∧ history < 0x100000000) (hfreq : 0 < freq ∧ freq < 0x100000000)
    (clock : Nat → Int) (files : List α) : Inv typeName history freq (files.flatMap rows)
      (exec (State.step real) { history, pollFrequency := freq, clock }
        (plugin.events real (files.map input))) := by
  have hpasses : (files.map input).flatMap (fun f => .pass :: plugin.collect real f)
      = (files.map rows).flatMap (fun rows => .pass :: rows.flatMap (Row.events typeName)) := by
    rw [List.flatMap_map, List.flatMap_map]
    refine List.flatMap_congr fun file _ => ?_
    rw [hcollect file]
  have hbuilt : Inv typeName history freq ([] : List (Row fields)) _ :=
    inv_built real typeName clock
  have hinv := inv_passes real typeName hbuilt hhistory hfreq (files.map rows)
  rw [List.nil_append, ← List.flatMap_def, ← hpasses] at hinv
  unfold Plugin.events
  rw [hconstruct]
  exact hinv

end Rows

/-! ### Network interfaces -/

/-- The numbers of a line with the blanks before them. -/
def numberWords (numbers : List (Nat × Nat)) : List (Nat × String) :=
  numbers.map (fun n => (n.1, toString n.2))

theorem isWord_numberWords (numbers : List (Nat × Nat)) : ∀ w ∈ numberWords numbers, IsWord w.2 :=
  List.forall_mem_map.mpr fun n _ => isWord_nat n.2

theorem map_numberWords (numbers : List (Nat × Nat)) :
    (numberWords numbers).map Prod.snd = (numbers.map Prod.snd).map toString := by
  unfold numberWords
  rw [List.map_map, List.map_map]
  rfl

/-- The line of an interface in `/proc/net/dev`. The numbers have the count of further blanks
before them, and each of them fits the `long` through which `atoi` goes. -/
structure NetLine where
  indent : Nat
  name : String
  numbers : List (Nat × Nat)
  solid : ∀ c ∈ name.toList, c ≠ ' ' ∧ c ≠ ':' ∧ c ≠ '\n'
  columns : 12 ≤ numbers.length
  fits : ∀ n ∈ numbers, n.2 < 0x8000000000000000

namespace NetLine

def text (l : NetLine) : String :=
  String.ofList (List.replicate l.indent ' ' ++ (l.name.toList ++
    ':' :: (padded (numberWords l.numbers)).toList))

/-- The line as the collector takes it. -/
def row (l : NetLine) : Row netDevFields where
  id := l.name
  raw := (l.numbers.map Prod.snd).map toString
  numbers := l.numbers.map Prod.snd
  words _ _ := rfl

/-- The collector finds the name before the colon, and the numbers behind it. -/
theorem netDevLine_text (l : NetLine) : netDevLine l.text = l.row.events "network_stat" := by
  let before : List Char := List.replicate l.indent ' ' ++ l.name.toList
  have htext : l.text.toList = before ++ ':' :: (padded (numberWords l.numbers)).toList := by
    rw [text, String.toList_ofList, List.append_assoc]
  have hcolon : ':' ∉ before := by
    intro hmem
    rcases List.mem_append.mp hmem with h | h
    · exact absurd (List.mem_replicate.mp h).2 (by decide)
    · exact (l.solid _ h).2.1 rfl
  have htake : l.text.toList.take before.length = before := by
    rw [htext, List.take_left]
  have hdrop : l.text.toList.drop (before.length + 1) = (padded (numberWords l.numbers)).toList := by
    rw [htext, List.append_cons]
    exact List.drop_left' (by simp)
  have hid : before.drop (((rfind (String.ofList before) ' ').map (· + 1)).getD 0)
      = l.name.toList := by
    have hname : ' ' ∉ l.name.toList := fun h => (l.solid _ h).1 rfl
    cases hindent : l.indent with
    | zero =>
        have hbefore : before = l.name.toList := by
          show List.replicate l.indent ' ' ++ l.name.toList = _
          rw [hindent]
          rfl
        rw [hbefore, rfind_eq_none.mpr (by rw [String.toList_ofList]; exact hname)]
        rfl
    | succ n =>
        have hbefore : before = List.replicate n ' ' ++ ' ' :: l.name.toList := by
          show List.replicate l.indent ' ' ++ l.name.toList = _
          rw [hindent, List.replicate_succ', List.append_assoc]
          rfl
        have hrfind : rfind (String.ofList before) ' ' = some n := by
          rw [rfind_of_split (by rw [String.toList_ofList]; exact hbefore) hname,
            List.length_replicate]
        rw [hrfind, hbefore, List.append_cons]
        exact List.drop_left' (by simp)
  have hraw : tokens (String.ofList (padded (numberWords l.numbers)).toList)
      = (l.numbers.map Prod.snd).map toString := by
    rw [tokens_padded (a := "") (by rw [String.toList_ofList]; rfl)
      (isWord_numberWords l.numbers), map_numberWords]
    rfl
  unfold netDevLine
  rw [find_of_split htext hcolon]
  dsimp only
  rw [htake, hdrop, String.toList_ofList, hid, String.ofList_toList, hraw]
  rfl

theorem not_mem_text (l : NetLine) : '\n' ∉ l.text.toList := by
  rw [text, String.toList_ofList]
  intro h
  rcases List.mem_append.mp h with h | h
  · exact absurd (List.mem_replicate.mp h).2 (by decide)
  · rcases List.mem_append.mp h with h | h
    · exact (l.solid _ h).2.2 rfl
    · rcases List.mem_cons.mp h with h | h
      · exact absurd h (by decide)
      · exact not_mem_padded (c := '\n') (isWord_numberWords l.numbers) rfl (by decide) h

end NetLine

/-- `/proc/net/dev`: two lines of headings, and the lines of the interfaces. -/
structure NetFile where
  headings : List String
  lines : List NetLine
  plain : ∀ h ∈ headings, ':' ∉ h.toList ∧ '\n' ∉ h.toList

def NetFile.text (file : NetFile) : String :=
  fileOf (file.headings ++ file.lines.map NetLine.text)

/-- A pass over the file. -/
theorem collect_netdev (real : Option ℚ → Json) (file : Option NetFile) :
    Plugin.netdev.collect real (file.map NetFile.text)
      = ((file.elim [] NetFile.lines).map NetLine.row).flatMap (Row.events "network_stat") := by
  cases file with
  | none => rfl
  | some file =>
      have hlines : linesOf file.text = file.headings ++ file.lines.map NetLine.text := by
        refine linesOf_fileOf fun l hl => ?_
        rcases List.mem_append.mp hl with hl | hl
        · exact (file.plain l hl).2
        · obtain ⟨line, -, rfl⟩ := List.mem_map.mp hl
          exact line.not_mem_text
      have hheadings : file.headings.flatMap netDevLine = [] := by
        refine List.flatMap_eq_nil_iff.mpr fun h hh => ?_
        unfold netDevLine
        rw [find_eq_none.mpr (file.plain h hh).1]
      show (linesOf file.text).flatMap netDevLine = _
      rw [hlines, List.flatMap_append, hheadings, List.nil_append, List.flatMap_map,
        List.flatMap_map]
      exact List.flatMap_congr fun l _ => l.netDevLine_text

/-- The lines of an interface in all files. -/
def netLines (passes : List (Option NetFile)) (name : String) : List NetLine :=
  (passes.flatMap (fun file => file.elim [] NetFile.lines)).filter (fun l => l.name = name)

/-- The counters of an interface in a column. -/
def netCounters (passes : List (Option NetFile)) (name : String) (column : Nat) : List Nat :=
  (netLines passes name).map (fun l => (l.numbers.map Prod.snd)[column]?.getD 0)

/-- For all texts of `/proc/net/dev` with numbers below 2^63, and interfaces that come and go in
any order, the samples of an interface hold the rates of its own counters, the newest first, and
only the last `history` of them. The interfaces that were listed have a ressource, and no
others. -/
theorem netdev_rates (real : Option ℚ → Json) {history freq : Nat}
    (hhistory : 0 < history ∧ history < 0x100000000) (hfreq : 0 < freq ∧ freq < 0x100000000)
    (clock : Nat → Int) (passes : List (Option NetFile)) (name : String) :
    let s := exec (State.step real) { history, pollFrequency := freq, clock }
      (Plugin.netdev.events real (passes.map (Option.map NetFile.text)))
    s.mode = .running ∧ ((s.ressources name).isSome ↔ netLines passes name ≠ []) ∧
      ∀ f ∈ netDevFields, Counts (netCounters passes name f.2) →
        (samples s name).map (fun sample => sample.lookup f.1)
          = ((rates freq (netCounters passes name f.2)).reverse.take history).map
              (fun n => some (.int n)) := by
  intro s
  have hinv : Inv "network_stat" history freq _ s :=
    inv_events real "network_stat" Plugin.netdev (Option.map NetFile.text)
      (fun file => (file.elim [] NetFile.lines).map NetLine.row) rfl (collect_netdev real) hhistory
      hfreq clock passes
  rw [← List.map_flatMap] at hinv
  have hlines : ∀ column, ((((passes.flatMap fun file => file.elim [] NetFile.lines).map
      NetLine.row).filter (fun row => row.id = name)).map (fun row => row.numbers[column]?.getD 0))
        = netCounters passes name column := by
    intro column
    rw [List.filter_map, List.map_map]
    rfl
  refine ⟨hinv.running, ?_, fun f hf hcounts => ?_⟩
  · rw [isSome_of_inv _ hinv name, List.filter_map, ne_eq, List.map_eq_nil_iff]
    exact Iff.rfl
  · rw [← hlines] at hcounts ⊢
    exact lookups_of_inv _ nodup_fields.1 hf hinv hhistory.1 name hcounts

/-- Three files. The second one does not list the interface, and a counter wraps. -/
def someNetFiles : List (Option NetFile) :=
  let line (name : String) (h : ∀ c ∈ name.toList, c ≠ ' ' ∧ c ≠ ':' ∧ c ≠ '\n')
      (rbytes : Fin 0x8000000000000000) : NetLine :=
    { indent := 2, name, solid := h, columns := Nat.le_of_ble_eq_true rfl
      fits := by simp
      numbers := [(0, rbytes), (3, 1), (2, 0), (3, 0), (3, 0), (4, 0), (9, 0), (8, 0), (1, 7),
        (3, 1), (2, 0), (3, 0), (3, 0), (4, 0), (5, 0), (9, 0)] }
  let file (lines : List NetLine) : Option NetFile :=
    some { headings := ["Inter-|   Receive", " face |bytes"], lines, plain := by decide }
  [file [line "lo" (by decide) 5, line "eth0" (by decide) 4294967290],
    file [line "lo" (by decide) 50],
    file [line "eth0" (by decide) 4294967390, line "lo" (by decide) 80]]

theorem netdev_rates_eth0 :
    (samples (exec (State.step fun _ => .null) { history := 30, pollFrequency := 5, clock := Int.ofNat }
      (Plugin.netdev.events (fun _ => .null) (someNetFiles.map (Option.map NetFile.text)))) "eth0").map
        (fun sample => sample.lookup "rbytes") = [some (.int 20), some (.int 0)] :=
  (netdev_rates (fun _ => .null) (by decide) (by decide) Int.ofNat someNetFiles "eth0").2.2
    ("rbytes", 0) (by decide) (by unfold Counts; decide)

/-! ### Disks -/

/-- The line of a disk in `/proc/diskstats`: the numbers of the device, its name, and the
counters, each of which fits the `long` through which `atoi` goes. -/
structure DiskLine where
  indent : Nat
  major : Nat
  minor : Nat × Nat
  name : Nat × String
  numbers : List (Nat × Nat)
  word : IsWord name.2
  columns : 11 ≤ numbers.length
  fits : ∀ n ∈ numbers, n.2 < 0x8000000000000000

namespace DiskLine

/-- The words behind the first number. -/
def words (l : DiskLine) : List (Nat × String) :=
  (l.minor.1, toString l.minor.2) :: l.name :: numberWords l.numbers

def text (l : DiskLine) : String :=
  String.ofList (List.replicate l.indent ' ' ++ ((toString l.major).toList ++
    (padded l.words).toList))

theorem isWord_words (l : DiskLine) : ∀ w ∈ l.words, IsWord w.2 := by
  intro w hw
  rcases List.mem_cons.mp hw with rfl | hw
  · exact isWord_nat _
  · rcases List.mem_cons.mp hw with rfl | hw
    · exact l.word
    · exact isWord_numberWords l.numbers w hw

/-- The line as the collector takes it. The name stands where a number would. -/
def row (l : DiskLine) : Row diskStatsFields where
  id := l.name.2
  raw := toString l.major :: l.words.map Prod.snd
  numbers := l.major :: l.minor.2 :: 0 :: l.numbers.map Prod.snd
  words := by
    have hplaces : ∀ f ∈ diskStatsFields, 3 ≤ f.2 := by decide
    intro f hf
    obtain ⟨n, hn⟩ : ∃ n, f.2 = n + 3 := ⟨f.2 - 3, by have := hplaces f hf; omega⟩
    rw [hn, words, List.map_cons, List.map_cons, map_numberWords]
    rfl

theorem tokens_text (l : DiskLine) : tokens l.text = toString l.major :: l.words.map Prod.snd := by
  let a : String := String.ofList (List.replicate l.indent ' ' ++ (toString l.major).toList)
  have htext : l.text.toList = a.toList ++ (padded l.words).toList := by
    rw [text, String.toList_ofList, String.toList_ofList, List.append_assoc]
  have ha : tokens a = [toString l.major] := by
    rw [tokens_blanks String.toList_ofList fun c hc => by rw [(List.mem_replicate.mp hc).2]; rfl,
      tokens_of_isWord (isWord_nat _)]
  rw [tokens_padded htext l.isWord_words, ha]
  rfl

/-- The collector leaves out the disks whose name starts with `dm-`. -/
theorem diskStatsLine_text (l : DiskLine) : diskStatsLine l.text
    = if l.name.2.toList.take 3 = "dm-".toList then [] else l.row.events "disk_stats" := by
  unfold diskStatsLine
  rw [tokens_text]
  rfl

theorem not_mem_text (l : DiskLine) : '\n' ∉ l.text.toList := by
  rw [text, String.toList_ofList]
  intro h
  rcases List.mem_append.mp h with h | h
  · exact absurd (List.mem_replicate.mp h).2 (by decide)
  · rcases List.mem_append.mp h with h | h
    · have hsolid : isSpace '\n' = false := (isWord_nat l.major).solid _ h
      exact absurd hsolid (by decide)
    · exact not_mem_padded (c := '\n') l.isWord_words rfl (by decide) h

end DiskLine

/-- `/proc/diskstats`. -/
def diskText (lines : List DiskLine) : String := fileOf (lines.map DiskLine.text)

/-- The lines that are not left out. -/
def shownDisks (lines : List DiskLine) : List DiskLine :=
  lines.filter (fun l => l.name.2.toList.take 3 ≠ "dm-".toList)

theorem flatMap_diskStatsLine (lines : List DiskLine) : (lines.map DiskLine.text).flatMap diskStatsLine
    = ((shownDisks lines).map DiskLine.row).flatMap (Row.events "disk_stats") := by
  induction lines with
  | nil => simp [shownDisks]
  | cons l lines ih =>
      unfold shownDisks at ih ⊢
      rw [List.map_cons, List.flatMap_cons, l.diskStatsLine_text, ih, List.filter_cons]
      by_cases hdm : l.name.2.toList.take 3 = "dm-".toList
      · rw [if_pos hdm, if_neg (by rw [hdm]; decide), List.nil_append]
      · rw [if_neg hdm, if_pos (decide_eq_true hdm), List.map_cons, List.flatMap_cons]

/-- A pass over the file. -/
theorem collect_diskstats (real : Option ℚ → Json) (file : Option (List DiskLine)) :
    Plugin.diskstats.collect real (file.map diskText)
      = ((shownDisks (file.getD [])).map DiskLine.row).flatMap (Row.events "disk_stats") := by
  cases file with
  | none => simp [Plugin.collect, ofLines, shownDisks]
  | some lines =>
      have hlines : linesOf (diskText lines) = lines.map DiskLine.text :=
        linesOf_fileOf (List.forall_mem_map.mpr fun l _ => l.not_mem_text)
      show (linesOf (diskText lines)).flatMap diskStatsLine = _
      rw [hlines, flatMap_diskStatsLine]
      rfl

/-- The lines of a disk in all files. -/
def diskLines (passes : List (Option (List DiskLine))) (name : String) : List DiskLine :=
  (passes.flatMap (fun file => shownDisks (file.getD []))).filter (fun l => l.name.2 = name)

/-- The counters of a disk. The first one is in the column 3. -/
def diskCounters (passes : List (Option (List DiskLine))) (name : String) (column : Nat) :
    List Nat :=
  (diskLines passes name).map (fun l => (l.numbers.map Prod.snd)[column - 3]?.getD 0)

/-- For all texts of `/proc/diskstats` with counters below 2^63, and disks that come and go in any
order, the samples of a disk hold the rates of its own counters, the newest first, and only the
last `history` of them. The disks that were listed have a ressource, those named `dm-` apart, and
no others. -/
theorem diskstats_rates (real : Option ℚ → Json) {history freq : Nat}
    (hhistory : 0 < history ∧ history < 0x100000000) (hfreq : 0 < freq ∧ freq < 0x100000000)
    (clock : Nat → Int) (passes : List (Option (List DiskLine))) (name : String) :
    let s := exec (State.step real) { history, pollFrequency := freq, clock }
      (Plugin.diskstats.events real (passes.map (Option.map diskText)))
    s.mode = .running ∧ ((s.ressources name).isSome ↔ diskLines passes name ≠ []) ∧
      ∀ f ∈ diskStatsFields, Counts (diskCounters passes name f.2) →
        (samples s name).map (fun sample => sample.lookup f.1)
          = ((rates freq (diskCounters passes name f.2)).reverse.take history).map
              (fun n => some (.int n)) := by
  intro s
  have hinv : Inv "disk_stats" history freq _ s :=
    inv_events real "disk_stats" Plugin.diskstats (Option.map diskText)
      (fun file => (shownDisks (file.getD [])).map DiskLine.row) rfl (collect_diskstats real)
      hhistory hfreq clock passes
  rw [← List.map_flatMap] at hinv
  have hplaces : ∀ f ∈ diskStatsFields, 3 ≤ f.2 := by decide
  have hlines : ∀ f ∈ diskStatsFields, ((((passes.flatMap fun file =>
      shownDisks (file.getD [])).map DiskLine.row).filter (fun row => row.id = name)).map
        (fun row => row.numbers[f.2]?.getD 0)) = diskCounters passes name f.2 := by
    intro f hf
    obtain ⟨n, hn⟩ : ∃ n, f.2 = n + 3 := ⟨f.2 - 3, by have := hplaces f hf; omega⟩
    rw [List.filter_map, List.map_map, hn]
    rfl
  refine ⟨hinv.running, ?_, fun f hf hcounts => ?_⟩
  · rw [isSome_of_inv _ hinv name, List.filter_map, ne_eq, List.map_eq_nil_iff]
    exact Iff.rfl
  · rw [← hlines f hf] at hcounts ⊢
    exact lookups_of_inv _ nodup_fields.2 hf hinv hhistory.1 name hcounts

/-- Three files, of which one could not be opened. -/
def someDiskFiles : List (Option (List DiskLine)) :=
  let line (name : String) (h : IsWord name) (rcount : Fin 0x8000000000000000) : DiskLine :=
    { indent := 3, major := 8, minor := (6, 0), name := (0, name), word := h
      columns := Nat.le_of_ble_eq_true rfl
      fits := by simp
      numbers := [(0, rcount), (0, 1), (0, 2), (0, 3), (0, 4), (0, 5), (0, 6), (0, 7), (0, 0),
        (0, 8), (0, 9)] }
  let sda : IsWord "sda" := ⟨by decide, by decide⟩
  let dm0 : IsWord "dm-0" := ⟨by decide, by decide⟩
  [some [line "sda" sda 100, line "dm-0" dm0 5], none, some [line "dm-0" dm0 5, line "sda" sda 160]]

theorem diskstats_rates_sda :
    (samples (exec (State.step fun _ => .null) { history := 30, pollFrequency := 5, clock := Int.ofNat }
      (Plugin.diskstats.events (fun _ => .null) (someDiskFiles.map (Option.map diskText)))) "sda").map
        (fun sample => sample.lookup "rcount") = [some (.int 12), some (.int 0)] :=
  (diskstats_rates (fun _ => .null) (by decide) (by decide) Int.ofNat someDiskFiles "sda").2.2
    ("rcount", 3) (by decide) (by unfold Counts; decide)

end WatchedAgent.Proofs.DeviceRates
