import WatchedAgent.Lib.Counters
import WatchedAgent.Model.Rates
import WatchedAgent.Proofs.IoCollectors

/-!
# `WatchedAgent.Proofs.PidRates`: rates that are summed over processes

A pass on a `pidRessource` makes a sample and reads values of processes under some names. The
history of a ressource is the list of all its readings. Its tables hold the last reading of
each name and process (`Tabled`), and in the middle of a pass the new sample holds what the
readings so far have added (`Midway`).

* `rates_run`: after every pass, the sample holds the growth of each name that was known.
* `shows_nextValue` and `shows_set`: `PidRessource` is the newest sample of a series.
* `ioRun_rates`: what `ServioCollector` publishes under its names.
-/

set_option autoImplicit false

namespace WatchedAgent.Proofs.PidRates

open WatchedAgent.Lib
open WatchedAgent.Lib.Counters
open WatchedAgent.Model
open WatchedAgent.Proofs.IoCollectors (IoPass opened readProcess_hidden readProcess_shown)

/-- A reading: the name and the process, and the value. -/
abbrev PidReading := (String × Nat) × Nat

/-- A pass: the time of its `nextValue`, and the readings it hands to `setPidValue`. -/
structure PidPass where
  now : ℚ
  readings : List PidReading

/-- No process is read twice under a name. -/
def PidPass.Distinct (p : PidPass) : Prop := (p.readings.map Prod.fst).Nodup

/-- A `setPidValue` call. -/
def set (r : PidSeries) (e : PidReading) : Option PidSeries := r.setPidValue e.1.1 e.1.2 e.2

/-- A ressource after a pass. `none` is an access of `v[0]` without a sample. -/
def pass (r : PidSeries) (p : PidPass) : Option PidSeries := do
  let r ← r.nextValue p.now
  p.readings.foldlM set r

/-- A new ressource after some passes. -/
def run (size : Nat) (factor : ℚ) (passes : List PidPass) : Option PidSeries :=
  passes.foldlM pass { size, factor }

/-- All readings of some passes. -/
def history (passes : List PidPass) : List PidReading := passes.flatMap PidPass.readings

/-- A value was read under the name. -/
def Known (past : List PidReading) (name : String) : Prop := ∃ e ∈ past, e.1.1 = name

/-- The factor times what the processes read under a name have grown since they were read
last. A process that was not read before counts nothing, as does a value that went back. -/
def rate (factor : ℚ) (past readings : List PidReading) (name : String) : ℚ :=
  factor * (((readings.filter (fun e => e.1.1 = name)).map
    (fun e => growth (lastReading past e.1) e.2)).sum : Nat)

theorem rate_append (factor : ℚ) (past readings : List PidReading) (e : PidReading)
    (name : String) : rate factor past (readings ++ [e]) name = rate factor past readings name
      + if e.1.1 = name then factor * (growth (lastReading past e.1) e.2 : Nat) else 0 := by
  unfold rate
  rw [List.filter_append, List.map_append, List.sum_append]
  by_cases hname : e.1.1 = name
  · rw [if_pos hname, List.filter_cons_of_pos (by simpa using hname), List.filter_nil,
      List.map_singleton, List.sum_singleton, Nat.cast_add, mul_add]
  · rw [if_neg hname, List.filter_cons_of_neg (by simpa using hname), List.filter_nil,
      List.map_nil, List.sum_nil, Nat.add_zero, add_zero]

/-! ### The tables -/

/-- The last reading of a process that a table holds. -/
def read (values : List (String × PidMap Nat)) (key : String × Nat) : Option Nat :=
  (values.lookup key.1).bind (fun m => m key.2)

/-- The tables hold the last readings of a history. -/
structure Tabled (past : List PidReading) (values : List (String × PidMap Nat)) : Prop where
  read : ∀ key, read values key = lastReading past key
  known : ∀ name, (values.lookup name).isSome = true ↔ Known past name

theorem tabled_nil : Tabled [] [] := ⟨fun _ => rfl, by simp [Known]⟩

theorem lookup_setValue (name : String) (pid value : Nat) (values : List (String × PidMap Nat))
    (key : String) : (PidRessource.setValue name pid value values).lookup key
      = if key = name then
          some (Function.update ((values.lookup name).getD fun _ => none) pid (some value))
        else values.lookup key := by
  induction values with
  | nil =>
      rw [PidRessource.setValue]
      by_cases hkey : key = name
      · rw [if_pos hkey, hkey, List.lookup_cons_self]
        rfl
      · rw [if_neg hkey, Json.lookup_cons_of_ne _ _ hkey]
  | cons e values ih =>
      obtain ⟨k, m⟩ := e
      rw [PidRessource.setValue]
      by_cases hk : k = name
      · subst hk
        rw [if_pos rfl]
        by_cases hkey : key = k
        · rw [if_pos hkey, hkey, List.lookup_cons_self, List.lookup_cons_self]
          rfl
        · rw [if_neg hkey, Json.lookup_cons_of_ne _ _ hkey, Json.lookup_cons_of_ne _ _ hkey]
      · rw [if_neg hk]
        by_cases hkey : key = k
        · subst hkey
          rw [if_neg hk, List.lookup_cons_self, List.lookup_cons_self]
        · rw [Json.lookup_cons_of_ne _ _ hkey, Json.lookup_cons_of_ne _ _ hkey, ih,
            Json.lookup_cons_of_ne _ _ (Ne.symm hk)]

/-- A reading is written into the tables. -/
theorem tabled_setValue {past : List PidReading} {values : List (String × PidMap Nat)}
    (h : Tabled past values) (e : PidReading) :
    Tabled (past ++ [e]) (PidRessource.setValue e.1.1 e.1.2 e.2 values) := by
  obtain ⟨⟨name, pid⟩, value⟩ := e
  constructor
  · rintro ⟨key, q⟩
    rw [lastReading_append, ← h.read]
    unfold PidRates.read
    dsimp only
    rw [lookup_setValue]
    by_cases hkey : key = name
    · subst hkey
      rw [if_pos rfl, Option.bind_some]
      by_cases hq : q = pid
      · rw [hq, Function.update_self, if_pos rfl]
      · have hne : (key, q) ≠ (key, pid) := fun heq => hq (Prod.mk.inj heq).2
        rw [Function.update_of_ne hq, if_neg hne]
        cases values.lookup key <;> rfl
    · have hne : (key, q) ≠ (name, pid) := fun heq => hkey (Prod.mk.inj heq).1
      rw [if_neg hkey, if_neg hne]
  · intro key
    rw [lookup_setValue]
    have hknown : Known (past ++ [((name, pid), value)]) key ↔ Known past key ∨ name = key := by
      simp [Known, or_and_right, exists_or]
    rw [hknown]
    by_cases hkey : key = name
    · rw [if_pos hkey]
      exact ⟨fun _ => .inr hkey.symm, fun _ => rfl⟩
    · rw [if_neg hkey, h.known]
      exact ⟨.inl, fun hor => hor.resolve_right (Ne.symm hkey)⟩

/-! ### A pass -/

/-- A ressource in the middle of a pass: the tables hold the readings so far, and the sample
of the pass what they have added. -/
structure Midway (size : Nat) (factor : ℚ) (past done : List PidReading) (r : PidSeries) :
    Prop where
  size_eq : r.size = size
  factor_eq : r.factor = factor
  tabled : Tabled (past ++ done) r.values
  sample : ∀ name, Known past name →
    ∃ s v, r.v = s :: v ∧ s.lookup name = some (rate factor past done name)

section Pass
variable {size : Nat} {factor : ℚ} {past : List PidReading} {r : PidSeries}

/-- All values of a sample are reset. -/
theorem lookup_reset (values : List (String × PidMap Nat)) (s : Members) (name : String) :
    (values.foldl (fun s i => s.setProperty i.1 0) s).lookup name
      = if (values.lookup name).isSome then some 0 else s.lookup name := by
  induction values generalizing s with
  | nil => rfl
  | cons i values ih =>
      rw [List.foldl_cons, ih, MembersOf.lookup_setProperty, List.lookup_cons]
      by_cases hname : name = i.1
      · rw [if_pos hname, beq_iff_eq.mpr hname, ite_self]
        rfl
      · rw [if_neg hname, beq_eq_false_iff_ne.mpr hname]

/-- There is a sample to reset. -/
theorem foldlM_assign (values : List (String × PidMap Nat)) (s : Members) (v : List Members) :
    values.foldlM (fun v i => PidSeries.assign i.1 0 v) (s :: v)
      = some (values.foldl (fun s i => s.setProperty i.1 0) s :: v) := by
  induction values generalizing s with
  | nil => rfl
  | cons i values ih => exact ih (s.setProperty i.1 0)

/-- A sample is made and not cut off. -/
theorem insertSample_eq (hsize : 0 < r.size) (now : ℚ) :
    ∃ v, r.insertSample now = (r.v.headD []).setProperty "timestamp" now :: v := by
  obtain ⟨n, hn⟩ : ∃ n, r.size = n + 1 := ⟨r.size - 1, by omega⟩
  unfold PidSeries.insertSample
  rw [hn, List.take_succ_cons]
  exact ⟨r.v.take n, rfl⟩

/-- The new sample starts at zero under all names that are known. -/
theorem midway_nextValue (hsize : 0 < size) (hr : r.size = size) (hfactor : r.factor = factor)
    (h : Tabled past r.values) (now : ℚ) :
    ∃ r', r.nextValue now = some r' ∧ Midway size factor past [] r' := by
  have htabled : Tabled (past ++ []) r.values := by rwa [List.append_nil]
  have hzero : ∀ name, rate factor past [] name = 0 := fun name => by simp [rate]
  unfold PidSeries.nextValue
  by_cases hempty : r.values = []
  · -- Nothing was read before, so there are no names and there is no sample.
    rw [hempty]
    refine ⟨_, rfl, hr, hfactor, hempty ▸ htabled, fun name hname => ?_⟩
    rw [← h.known, hempty] at hname
    cases hname
  · obtain ⟨v, hinsert⟩ := insertSample_eq (hr ▸ hsize) now
    rw [if_neg (by simpa using hempty), hinsert, foldlM_assign]
    refine ⟨_, rfl, hr, hfactor, htabled, fun name hname => ⟨_, v, rfl, ?_⟩⟩
    rw [lookup_reset, if_pos ((h.known name).mpr hname), hzero]

/-- A process that was not read in the pass adds what it has grown since the last one. -/
theorem midway_set {done : List PidReading} (h : Midway size factor past done r) {e : PidReading}
    (hnew : e.1 ∉ done.map Prod.fst) :
    ∃ r', set r e = some r' ∧ Midway size factor past (done ++ [e]) r' := by
  have htabled : Tabled (past ++ (done ++ [e]))
      (PidRessource.setValue e.1.1 e.1.2 e.2 r.values) := by
    rw [← List.append_assoc]
    exact tabled_setValue h.tabled e
  have hread : (r.values.lookup e.1.1).bind (fun m => m e.1.2) = lastReading past e.1 :=
    (h.tabled.read e.1).trans (lastReading_append_of_not_mem past hnew)
  -- The sample stays where nothing is added.
  have hskip (hgrowth : growth (lastReading past e.1) e.2 = 0) : ∀ name, Known past name →
      ∃ s v, r.v = s :: v ∧ s.lookup name = some (rate factor past (done ++ [e]) name) := by
    intro name hname
    obtain ⟨s, v, hv, hs⟩ := h.sample name hname
    refine ⟨s, v, hv, ?_⟩
    rw [rate_append, hgrowth, Nat.cast_zero, mul_zero, ite_self, add_zero, hs]
  unfold set PidSeries.setPidValue PidSeries.addGrowth
  rw [hread]
  cases hlast : lastReading past e.1 with
  | none => exact ⟨_, rfl, h.size_eq, h.factor_eq, htabled, hskip (by rw [hlast]; rfl)⟩
  | some old =>
      dsimp only
      by_cases hlt : old < e.2
      · -- The name was read before the pass, so there is a sample to add to.
        obtain ⟨s, v, hv, hs⟩ := h.sample e.1.1 ⟨_, mem_of_lastReading hlast, rfl⟩
        rw [if_pos hlt, hv, List.headD_cons, hs, Option.getD_some]
        refine ⟨_, rfl, h.size_eq, h.factor_eq, htabled, fun name hname => ⟨_, v, rfl, ?_⟩⟩
        obtain ⟨s', v', hv', hs'⟩ := h.sample name hname
        obtain ⟨rfl, -⟩ := List.cons.inj (hv.symm.trans hv')
        rw [MembersOf.lookup_setProperty, rate_append, hlast, h.factor_eq]
        by_cases hname : name = e.1.1
        · rw [if_pos hname, if_pos hname.symm, hname]
          rfl
        · rw [if_neg hname, if_neg (Ne.symm hname), add_zero, hs']
      · have hgrowth : growth (lastReading past e.1) e.2 = 0 := by
          rw [hlast]
          exact Nat.sub_eq_zero_of_le (Nat.le_of_not_lt hlt)
        rw [if_neg hlt]
        exact ⟨_, rfl, h.size_eq, h.factor_eq, htabled, hskip hgrowth⟩

/-- All readings of a pass. -/
theorem midway_foldlM (h : Midway size factor past [] r) {readings : List PidReading}
    (hdistinct : (readings.map Prod.fst).Nodup) :
    ∃ r', readings.foldlM set r = some r' ∧ Midway size factor past readings r' := by
  induction readings using List.reverseRecOn with
  | nil => exact ⟨r, rfl, h⟩
  | append_singleton readings e ih =>
      rw [List.map_append, List.map_singleton, List.nodup_append] at hdistinct
      obtain ⟨hreadings, -, hdisjoint⟩ := hdistinct
      obtain ⟨r', hfold, hmidway⟩ := ih hreadings
      -- The last reading is of a pair that was not read before in the pass.
      obtain ⟨r'', hset, hmidway'⟩ := midway_set hmidway (e := e)
        fun hmem => hdisjoint _ hmem _ List.mem_cons_self rfl
      refine ⟨r'', ?_, hmidway'⟩
      rw [List.foldlM_append, hfold]
      show (set r' e).bind some = some r''
      rw [hset, Option.bind_some]

theorem midway_pass (hsize : 0 < size) (hr : r.size = size) (hfactor : r.factor = factor)
    (h : Tabled past r.values) {p : PidPass} (hdistinct : p.Distinct) :
    ∃ r', pass r p = some r' ∧ Midway size factor past p.readings r' := by
  obtain ⟨r', hnext, hmidway⟩ := midway_nextValue hsize hr hfactor h p.now
  obtain ⟨r'', hfold, hmidway'⟩ := midway_foldlM hmidway hdistinct
  refine ⟨r'', ?_, hmidway'⟩
  unfold pass
  rw [hnext]
  exact hfold

end Pass

/-! ### Runs -/

theorem run_append (size : Nat) (factor : ℚ) (passes : List PidPass) (p : PidPass) :
    run size factor (passes ++ [p]) = (run size factor passes).bind (fun r => pass r p) := by
  unfold run
  rw [List.foldlM_append, Option.bind_eq_bind]
  refine congrArg _ (funext fun r => ?_)
  rw [List.foldlM_cons, Option.bind_eq_bind]
  exact Option.bind_fun_some (pass r p)

/-- After some passes the tables hold the last readings of all of them. -/
theorem tabled_run {size : Nat} (hsize : 0 < size) (factor : ℚ) {passes : List PidPass}
    (hdistinct : ∀ p ∈ passes, p.Distinct) : ∃ r, run size factor passes = some r ∧
      r.size = size ∧ r.factor = factor ∧ Tabled (history passes) r.values := by
  induction passes using List.reverseRecOn with
  | nil => exact ⟨{ size, factor }, rfl, rfl, rfl, tabled_nil⟩
  | append_singleton passes p ih =>
      obtain ⟨r, hrun, hr, hfactor, htabled⟩ :=
        ih fun q hq => hdistinct q (List.mem_append_left _ hq)
      obtain ⟨r', hpass, hmidway⟩ := midway_pass hsize hr hfactor htabled
        (hdistinct p (List.mem_append_right _ List.mem_cons_self))
      refine ⟨r', ?_, hmidway.size_eq, hmidway.factor_eq, ?_⟩
      · rw [run_append, hrun, Option.bind_some, hpass]
      · have hhistory : history (passes ++ [p]) = history passes ++ p.readings := by
          simp [history]
        rw [hhistory]
        exact hmidway.tabled

/-- After the last pass the newest sample holds what its readings have added. -/
theorem midway_run {size : Nat} (hsize : 0 < size) (factor : ℚ) (passes : List PidPass)
    {p : PidPass} (hdistinct : ∀ q ∈ passes ++ [p], q.Distinct) :
    ∃ r, run size factor (passes ++ [p]) = some r ∧
      Midway size factor (history passes) p.readings r := by
  obtain ⟨r, hrun, hr, hfactor, htabled⟩ := tabled_run hsize factor
    fun q hq => hdistinct q (List.mem_append_left _ hq)
  obtain ⟨r', hpass, hmidway⟩ := midway_pass hsize hr hfactor htabled
    (hdistinct p (List.mem_append_right _ List.mem_cons_self))
  exact ⟨r', by rw [run_append, hrun, Option.bind_some, hpass], hmidway⟩

/-- No call accesses `v[0]` without a sample, and after the last pass the newest sample holds
the rate of each name that was read before it. -/
theorem rates_run (size : Nat) (hsize : 0 < size) (factor : ℚ) (passes : List PidPass)
    (p : PidPass) (hdistinct : ∀ q ∈ passes ++ [p], q.Distinct) :
    ∃ r, run size factor (passes ++ [p]) = some r ∧
      ∀ name, Known (history passes) name → ∃ s v, r.v = s :: v ∧
        s.lookup name = some (rate factor (history passes) p.readings name) := by
  obtain ⟨r, hrun, hmidway⟩ := midway_run hsize factor passes hdistinct
  exact ⟨r, hrun, hmidway.sample⟩

/-- A process that comes back is compared with what it was before. -/
theorem rates_run_back : ∃ r, run 2 1 ([⟨0, [(("rd", 7), 10), (("rd", 8), 3)]⟩,
    ⟨1, [(("rd", 8), 5)]⟩] ++ [⟨2, [(("rd", 7), 40), (("rd", 9), 6), (("rd", 8), 4)]⟩]) = some r ∧
      ∃ s v, r.v = s :: v ∧ s.lookup "rd" = some 30 := by
  obtain ⟨r, hrun, hrates⟩ := rates_run 2 (by decide) 1 [⟨0, [(("rd", 7), 10), (("rd", 8), 3)]⟩,
    ⟨1, [(("rd", 8), 5)]⟩] ⟨2, [(("rd", 7), 40), (("rd", 9), 6), (("rd", 8), 4)]⟩ (by
      unfold PidPass.Distinct
      decide)
  obtain ⟨s, v, hv, hs⟩ := hrates "rd" ⟨(("rd", 7), 10), by decide, rfl⟩
  refine ⟨r, hrun, s, v, hv, hs.trans (congrArg some ?_)⟩
  unfold rate
  rw [one_mul]
  rfl

/-! ### The collector of input and output -/

/-- The newest sample of a series with the factor 1, the timestamp apart. -/
structure Shows (r : PidSeries) (q : PidRessource) : Prop where
  factor_eq : r.factor = 1
  values : q.values = r.values
  sample : ∀ name, name ≠ "timestamp" → q.v.lookup name = (r.v.headD []).lookup name

section Newest
variable {r r' : PidSeries} {q : PidRessource}

theorem shows_nextValue (h : Shows r q) (hsize : 0 < r.size) {now : ℚ}
    (hnext : r.nextValue now = some r') : Shows r' q.nextValue := by
  unfold PidSeries.nextValue at hnext
  -- Without any value there is no new sample, and neither side has anything to set to zero.
  by_cases hempty : r.values = []
  · rw [hempty] at hnext
    rw [← Option.some.inj hnext]
    have hvalues : q.values = [] := h.values.trans hempty
    refine ⟨h.factor_eq, hvalues, fun name hname => ?_⟩
    show (q.values.foldl (fun v i => v.setProperty i.1 0) q.v).lookup name = _
    rw [hvalues]
    exact h.sample name hname
  · obtain ⟨v, hinsert⟩ := insertSample_eq hsize now
    rw [if_neg (by simpa using hempty), hinsert, foldlM_assign] at hnext
    rw [← Option.some.inj hnext]
    refine ⟨h.factor_eq, h.values, fun name hname => ?_⟩
    show (q.values.foldl (fun v i => v.setProperty i.1 0) q.v).lookup name = _
    rw [List.headD_cons, lookup_reset, lookup_reset, h.values, MembersOf.lookup_setProperty,
      if_neg hname, h.sample name hname]

theorem shows_set (h : Shows r q) {e : PidReading} (hname : e.1.1 ≠ "timestamp")
    (hset : set r e = some r') :
    Shows r' (q.setPidValue e.1.1 e.1.2 e.2) := by
  unfold set PidSeries.setPidValue PidSeries.addGrowth at hset
  unfold PidRessource.setPidValue
  rw [h.values]
  cases hold : (r.values.lookup e.1.1).bind (fun m => m e.1.2) with
  | none =>
      rw [hold] at hset
      rw [← Option.some.inj hset]
      exact ⟨h.factor_eq, rfl, h.sample⟩
  | some old =>
      rw [hold] at hset
      dsimp only at hset ⊢
      by_cases hlt : old < e.2
      · rw [if_pos hlt] at hset ⊢
        cases hv : r.v with
        -- The series would have failed.
        | nil =>
            rw [hv] at hset
            cases hset
        | cons s v =>
            rw [hv] at hset
            rw [← Option.some.inj hset]
            refine ⟨h.factor_eq, rfl, fun name hname' => ?_⟩
            have hsample := h.sample
            rw [hv] at hsample
            rw [List.headD_cons, List.headD_cons, MembersOf.lookup_setProperty,
              MembersOf.lookup_setProperty, hsample _ hname, h.factor_eq, one_mul, List.headD_cons,
              hsample _ hname']
            rfl
      · rw [if_neg hlt] at hset ⊢
        rw [← Option.some.inj hset]
        exact ⟨h.factor_eq, rfl, h.sample⟩

theorem shows_foldlM {readings : List PidReading} (h : Shows r q)
    (hnames : ∀ e ∈ readings, e.1.1 ≠ "timestamp") (hset : readings.foldlM set r = some r') :
    Shows r' (readings.foldl (fun q e => q.setPidValue e.1.1 e.1.2 e.2) q) := by
  induction readings generalizing r q with
  | nil =>
      obtain rfl : r = r' := Option.some.inj hset
      exact h
  | cons e readings ih =>
      rw [List.foldlM_cons] at hset
      obtain ⟨r₁, hone, hrest⟩ := Option.bind_eq_some_iff.mp hset
      exact ih (shows_set h (hnames e List.mem_cons_self) hone)
        (fun e' he' => hnames e' (List.mem_cons_of_mem e he')) hrest

end Newest

/-- What the collector reads in a pass. -/
def ioReadings (p : IoPass) : List PidReading :=
  p.pids.flatMap fun pid => (p.files pid).elim [] fun f =>
    [(("rd", pid), Text.toUInt32 f.readBytes), (("wt", pid), Text.toUInt32 f.writeBytes)]

/-- The pass of the collector. The time does not count. -/
def ioPass (p : IoPass) : PidPass := ⟨0, ioReadings p⟩

/-- The newest sample of the collector after some passes. -/
def ioRun (passes : List IoPass) : PidRessource :=
  passes.foldl (fun q p => (ServioCollector.collect q p.toPass).1) {}

section Io
variable {p : IoPass}

theorem mem_ioReadings {e : PidReading} (he : e ∈ ioReadings p) :
    e.1.2 ∈ p.pids ∧ e.1.1 ∈ ServioCollector.properties := by
  obtain ⟨pid, hpid, he⟩ := List.mem_flatMap.mp he
  cases hfile : p.files pid with
  | none =>
      rw [hfile] at he
      cases he
  | some f =>
      rw [hfile] at he
      rcases List.mem_cons.mp he with rfl | he
      · exact ⟨hpid, List.mem_cons_self⟩
      · obtain rfl := List.mem_singleton.mp he
        exact ⟨hpid, List.mem_cons_of_mem _ List.mem_cons_self⟩

/-- A process has one file, with one value under each name. -/
theorem distinct_ioPass : (ioPass p).Distinct := by
  obtain ⟨pids, hnodup, files⟩ := p
  unfold PidPass.Distinct ioPass ioReadings
  dsimp only
  induction pids with
  | nil => exact List.nodup_nil
  | cons pid pids ih =>
      obtain ⟨hpid, hpids⟩ := List.nodup_cons.mp hnodup
      rw [List.flatMap_cons, List.map_append]
      refine List.nodup_append.mpr ⟨?_, ih hpids, ?_⟩
      · cases files pid with
        | none => exact List.nodup_nil
        | some f => simp
      · intro key hkey key' hkey' heq
        have hlater : key'.2 ∈ pids := by
          obtain ⟨e, he, rfl⟩ := List.mem_map.mp hkey'
          exact (mem_ioReadings (p := ⟨pids, hpids, files⟩) he).1
        have hhere : key.2 = pid := by
          obtain ⟨e, he, rfl⟩ := List.mem_map.mp hkey
          cases hfile : files pid with
          | none =>
              rw [hfile] at he
              cases he
          | some f =>
              rw [hfile, Option.elim_some, List.mem_pair] at he
              rcases he with rfl | rfl <;> rfl
        rw [← heq, hhere] at hlater
        exact hpid hlater

/-- A pass of the collector makes these readings. -/
theorem collect_eq (q : PidRessource) : (ServioCollector.collect q p.toPass).1
    = (ioReadings p).foldl (fun q e => q.setPidValue e.1.1 e.1.2 e.2) q.nextValue := by
  have hturns : ∀ (pids : List Nat) (q : PidRessource),
      pids.foldl (ServioCollector.readProcess (opened p.files)) q
        = (pids.flatMap fun pid => (p.files pid).elim [] fun f =>
            [(("rd", pid), Text.toUInt32 f.readBytes),
              (("wt", pid), Text.toUInt32 f.writeBytes)]).foldl
            (fun q (e : PidReading) => q.setPidValue e.1.1 e.1.2 e.2) q := by
    intro pids
    induction pids with
    | nil => exact fun _ => rfl
    | cons pid pids ih =>
        intro q
        rw [List.foldl_cons, List.flatMap_cons, List.foldl_append, ih]
        cases hfile : p.files pid with
        | none => rw [readProcess_hidden p.files hfile]; rfl
        | some f => rw [readProcess_shown p.files hfile]; rfl
  exact hturns p.pids q.nextValue

end Io

/-- The newest sample of the collector is that of the series. -/
theorem shows_ioRun {passes : List IoPass} {r : PidSeries}
    (hrun : run 1 1 (passes.map ioPass) = some r) : Shows r (ioRun passes) := by
  induction passes using List.reverseRecOn generalizing r with
  | nil =>
      obtain rfl : ({ size := 1, factor := 1 } : PidSeries) = r := Option.some.inj hrun
      exact ⟨rfl, rfl, fun _ _ => rfl⟩
  | append_singleton passes p ih =>
      obtain ⟨r₁, hbefore, hsize, -, -⟩ := tabled_run Nat.one_pos 1
        (List.forall_mem_map.mpr fun p (_ : p ∈ passes) => distinct_ioPass (p := p))
      rw [List.map_append, List.map_singleton, run_append, hbefore, Option.bind_some] at hrun
      obtain ⟨r₂, hnext, hset⟩ := Option.bind_eq_some_iff.mp hrun
      have hshows := shows_nextValue (ih hbefore) (hsize ▸ Nat.one_pos) hnext
      have hnames : ∀ name ∈ ServioCollector.properties, name ≠ "timestamp" := by decide
      unfold ioRun
      rw [List.foldl_append, List.foldl_cons, List.foldl_nil, collect_eq]
      exact shows_foldlM hshows (fun e he => hnames _ (mem_ioReadings he).2) hset

/-- Under each of its names that was read before, the collector publishes what the processes
have grown. -/
theorem ioRun_rates (passes : List IoPass) (p : IoPass) {name : String}
    (hname : name ∈ ServioCollector.properties)
    (hknown : Known (history (passes.map ioPass)) name) :
    (ioRun (passes ++ [p])).v.lookup name
      = some (rate 1 (history (passes.map ioPass)) (ioReadings p) name) := by
  have hnames : ∀ name ∈ ServioCollector.properties, name ≠ "timestamp" := by decide
  obtain ⟨r, hrun, hmidway⟩ := midway_run (p := ioPass p) Nat.one_pos 1
    (passes.map ioPass) (by
      rw [← List.map_singleton, ← List.map_append]
      exact List.forall_mem_map.mpr fun _ _ => distinct_ioPass)
  obtain ⟨s, v, hv, hs⟩ := hmidway.sample name hknown
  rw [← List.map_singleton, ← List.map_append] at hrun
  rw [(shows_ioRun hrun).sample name (hnames name hname), hv]
  exact hs

end WatchedAgent.Proofs.PidRates
