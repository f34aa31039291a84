import WatchedAgent.Lib.Run
import WatchedAgent.Model.HostCollectors
import WatchedAgent.Proofs.PidRates

/-!
# `WatchedAgent.Proofs.SafeCalls`: when the calls of a collector are defined

The sizes of the ressources and the divisor of the ticks come from the configuration, and the
constructor of `Collector` takes a zero there. A ressource of size 0 loses its sample in
`nextValue`, and then the calls that set a property access the front of an empty vector. A
`tickRessource` of frequency 0 divides by zero at its second reading.

`Trace` is what a pass has done so far, and `InOrder` says that it asks for a sample before it
sets a property. In a step of a collector that works in order the call is defined exactly where
the configuration settles it (`step_defined_iff`), and `meets_defined_iff` is the run.
-/

set_option autoImplicit false

namespace WatchedAgent.Proofs

open WatchedAgent.Lib
open WatchedAgent.Lib.Run (Meets)
open WatchedAgent.Model

namespace SafeCalls

open WatchedAgent.Model.Collecting

/-! ### The condition -/

/-- The configuration settles that the call is defined: a property is set in a ressource that
keeps samples, and a tick that has a reading has a divisor. -/
def Settles (history pollFrequency : Nat) : Series → SeriesCall → Prop
  | .plain _, .setProperty _ _ => 0 < history
  | .cpuTicks _ _, .setProperty _ _ => 0 < history
  | .cpuTicks _ _, .setRaw _ => 0 < history
  | .tick _, .setProperty _ _ => 0 < history
  | .tick r, .setTickValue name _ => 0 < history ∧ ((r.old name).isSome = true → 0 < pollFrequency)
  | .pid r, .nextValue => r.values ≠ [] → 0 < history
  | _, _ => True

/-- The call of the step is settled. -/
def Settled (s : State) : Event → Prop
  | .call res c => s.active = true →
      ∀ r, s.ressources res = some r → Settles s.history s.pollFrequency r c
  | _ => True

/-! ### Working in order -/

/-- What the constructor or the pass has done so far: the ressources whose `nextValue` it has
called, and the last reading of each process. -/
structure Trace where
  sampled : List String := []
  readings : String × String × Nat → Option Nat := fun _ => none

namespace Trace

/-- The trace after an event. A pass begins with an empty one. -/
def next (t : Trace) : Event → Trace
  | .call res .nextValue => { t with sampled := res :: t.sampled }
  | .call res (.setPidValue name pid value) =>
      { t with readings := Function.update t.readings (res, name, pid) (some value) }
  | .pass => {}
  | _ => t

/-- A property is set after the `nextValue` of its ressource, which is not replaced then. No
process is read again with a greater value. -/
def InOrder (t : Trace) : Event → Prop
  | .call _ .nextValue => True
  | .call res (.setPidValue name pid value) =>
      res ∈ t.sampled ∧ ∀ old, t.readings (res, name, pid) = some old → value ≤ old
  | .call res _ => res ∈ t.sampled
  | .assign res _ => res ∉ t.sampled
  | _ => True

end Trace

/-! ### One call -/

/-- The number of samples that a ressource has. -/
def samples : Series → Nat
  | .plain r => r.v.length
  | .cpuTicks r _ => r.v.length
  | .tick r => r.v.length
  | .pid r => r.v.length

/-- The ressource was constructed with the numbers of the configuration. -/
def Fits (history pollFrequency : Nat) : Series → Prop
  | .plain r => r.size = history ∧ r.v.length ≤ history
  | .cpuTicks r _ => r.size = history ∧ r.v.length ≤ history
  | .tick r => r.size = history ∧ r.v.length ≤ history ∧ r.freq = pollFrequency
  | .pid r => r.size = history

/-- A ressource after its `nextValue`: it has a sample if it keeps any. One of processes has a
sample, or all its values were read in this pass and did not grow. -/
def Ready (history : Nat) (t : Trace) (res : String) : Series → Prop
  | .pid r => r.v ≠ [] ∨ ∀ name pid old, PidRates.read r.values (name, pid) = some old →
      ∃ last, t.readings (res, name, pid) = some last ∧ last ≤ old
  | r => 0 < history → 0 < samples r

section Calls

variable {history pollFrequency : Nat} {now : Int}

theorem length_setProperty (name : String) (val : Json) (r : Ressource) :
    (r.setProperty name val).v.length = r.v.length ∧ (r.setProperty name val).size = r.size := by
  unfold Ressource.setProperty
  split <;> rename_i h
  · exact ⟨rfl, rfl⟩
  · exact ⟨by rw [h]; rfl, rfl⟩

theorem length_setProperties (real : Option ℚ → Json) (properties : Published) (r : Ressource) :
    (setProperties real properties r).v.length = r.v.length ∧
      (setProperties real properties r).size = r.size := by
  unfold setProperties
  induction properties generalizing r with
  | nil => exact ⟨rfl, rfl⟩
  | cons e properties ih =>
      rw [List.foldl_cons, (ih _).1, (ih _).2]
      exact length_setProperty e.1 (real e.2) r

/-- A new sample stays if the ressource keeps any. -/
theorem length_nextValue (now : Int) (r : Ressource) (hsize : r.size = history) :
    (r.nextValue now).v.length ≤ history ∧ (0 < history → 0 < (r.nextValue now).v.length) ∧
      (r.nextValue now).size = history := by
  unfold Ressource.nextValue
  dsimp only
  rw [List.length_take, List.length_cons, hsize]
  exact ⟨by omega, by omega, rfl⟩

/-- There is a sample if and only if the ressource keeps any. -/
theorem ne_nil_iff {v : List Sample} (hle : v.length ≤ history)
    (hready : 0 < history → 0 < v.length) : v ≠ [] ↔ 0 < history := by
  rw [← List.length_pos_iff]
  omega

/-- The values of a ressource of processes are reset where there are none, or where there is a
sample to keep them. -/
theorem nextValue_pid (r : PidSeries) (now : ℚ) :
    ((r.nextValue now).isSome = true ↔ (r.values ≠ [] → 0 < r.size)) ∧
      ∀ r', r.nextValue now = some r' →
        r'.size = r.size ∧ r'.values = r.values ∧ (r.values ≠ [] → r'.v ≠ []) := by
  by_cases hvalues : r.values = []
  · have hnext : r.nextValue now = some r := by
      cases r
      subst hvalues
      rfl
    rw [hnext]
    refine ⟨⟨fun _ h => absurd hvalues h, fun _ => rfl⟩, fun r' hr' => ?_⟩
    rw [← Option.some.inj hr']
    exact ⟨rfl, rfl, fun h => absurd hvalues h⟩
  · have hempty : r.values.isEmpty = false := List.isEmpty_eq_false_iff.mpr hvalues
    unfold PidSeries.nextValue
    rw [hempty, if_neg Bool.false_ne_true]
    by_cases hsize : 0 < r.size
    · obtain ⟨v, hv⟩ := PidRates.insertSample_eq hsize now
      rw [hv, PidRates.foldlM_assign]
      refine ⟨⟨fun _ _ => hsize, fun _ => rfl⟩, fun r' hr' => ?_⟩
      rw [← Option.some.inj hr']
      exact ⟨rfl, rfl, fun _ => List.cons_ne_nil _ _⟩
    · have hnone : r.values.foldlM (fun v i => PidSeries.assign i.1 0 v) (r.insertSample now)
          = none := by
        obtain ⟨e, values, heq⟩ := List.exists_cons_of_ne_nil hvalues
        unfold PidSeries.insertSample
        rw [heq, Nat.eq_zero_of_not_pos hsize, List.take_zero]
        rfl
      rw [hnone]
      refine ⟨⟨fun h => absurd h Bool.false_ne_true, fun h => absurd (h hvalues) hsize⟩,
        fun r' hr' => ?_⟩
      exact absurd hr' (Option.some_ne_none r').symm

/-- The reading is greater than the one before. -/
def Grows (r : PidSeries) (name : String) (pid value : Nat) : Prop :=
  ∃ old, PidRates.read r.values (name, pid) = some old ∧ old < value

/-- A value is assigned in a sample that is there. -/
theorem assign_spec (name : String) (val : ℚ) (v : List Members) :
    ((PidSeries.assign name val v).isSome = true ↔ v ≠ []) ∧
      ∀ v', PidSeries.assign name val v = some v' → v' ≠ [] := by
  cases v with
  | nil => exact ⟨⟨fun h => absurd h Bool.false_ne_true, fun h => absurd rfl h⟩,
      fun v' h => absurd h (Option.some_ne_none v').symm⟩
  | cons s v =>
      refine ⟨⟨fun _ => List.cons_ne_nil s v, fun _ => rfl⟩, fun v' h => ?_⟩
      rw [← Option.some.inj h]
      exact List.cons_ne_nil _ _

/-- A growth needs a sample. -/
theorem addGrowth_spec (r : PidSeries) (name : String) (pid value : Nat) :
    ((r.addGrowth name pid value).isSome = true ↔ (Grows r name pid value → r.v ≠ [])) ∧
      ∀ v, r.addGrowth name pid value = some v → r.v ≠ [] → v ≠ [] := by
  unfold PidSeries.addGrowth Grows
  have hread : (r.values.lookup name).bind (fun m => m pid) = PidRates.read r.values (name, pid) :=
    rfl
  rw [hread]
  cases PidRates.read r.values (name, pid) with
  | none =>
      refine ⟨⟨fun _ h => ?_, fun _ => rfl⟩, fun v hv hne => ?_⟩
      · obtain ⟨old, hold, -⟩ := h
        exact absurd hold (Option.some_ne_none old).symm
      · rw [← Option.some.inj hv]
        exact hne
  | some old =>
      dsimp only
      split
      · rename_i hlt
        obtain ⟨hsome, hkeep⟩ := assign_spec name
          (((r.v.headD []).lookup name).getD 0 + r.factor * ((value - old : Nat) : ℚ)) r.v
        rw [hsome]
        exact ⟨⟨fun h _ => h, fun h => h ⟨old, rfl, hlt⟩⟩, fun v hv _ => hkeep v hv⟩
      · rename_i hlt
        refine ⟨⟨fun _ h => ?_, fun _ => rfl⟩, fun v hv hne => ?_⟩
        · obtain ⟨old', hold, hgrows⟩ := h
          exact absurd (Option.some.inj hold ▸ hgrows) hlt
        · rw [← Option.some.inj hv]
          exact hne

variable {t : Trace} {res : String}

/-- In a pass that works in order, no value of a ressource without samples grows. -/
theorem ne_nil_of_grows {r : PidSeries} (hready : Ready history t res (.pid r)) {name : String}
    {pid value : Nat} (horder : t.InOrder (.call res (.setPidValue name pid value)))
    (hgrows : Grows r name pid value) : r.v ≠ [] := by
  obtain ⟨old, hold, hlt⟩ := hgrows
  rcases hready with hne | hall
  · exact hne
  · obtain ⟨last, hlast, hle⟩ := hall name pid old hold
    have hvalue := horder.2 last hlast
    omega

/-- A call in order is defined if and only if the configuration settles it. -/
theorem defined_iff {r : Series} {c : SeriesCall} (hfits : Fits history pollFrequency r)
    (hready : res ∈ t.sampled → Ready history t res r) (horder : t.InOrder (.call res c)) :
    r.Defined c ↔ Settles history pollFrequency r c := by
  cases r with
  | plain r =>
      cases c with
      | setProperty name val => exact ne_nil_iff hfits.2 (hready horder)
      | _ => exact Iff.rfl
  | cpuTicks r ticks =>
      cases c with
      | setProperty name val => exact ne_nil_iff hfits.2 (hready horder)
      | setRaw raw => exact ne_nil_iff hfits.2 (hready horder)
      | _ => exact Iff.rfl
  | tick r =>
      cases c with
      | setProperty name val => exact ne_nil_iff hfits.2.1 (hready horder)
      | setTickValue name value =>
          obtain ⟨-, hle, hfreq⟩ := hfits
          refine and_congr (ne_nil_iff hle (hready horder)) ?_
          rw [hfreq, Nat.pos_iff_ne_zero]
      | _ => exact Iff.rfl
  | pid r =>
      cases c with
      | nextValue =>
          obtain rfl : r.size = history := hfits
          exact (nextValue_pid r 0).1
      | setPidValue name pid value =>
          refine ⟨fun _ => trivial, fun _ => ?_⟩
          show (r.setPidValue name pid value).isSome = true
          have hsome := (addGrowth_spec r name pid value).1.mpr
            (ne_nil_of_grows (hready horder.1) horder)
          obtain ⟨v, hv⟩ := Option.isSome_iff_exists.mp hsome
          unfold PidSeries.setPidValue
          rw [hv]
          rfl
      | _ => exact Iff.rfl

/-- A ressource of processes after a reading in order. -/
theorem ready_setPidValue {r r' : PidSeries} (hready : Ready history t res (.pid r))
    {name : String} {pid value : Nat}
    (h : r.setPidValue name pid value = some r') :
    r'.size = r.size ∧
      Ready history (t.next (.call res (.setPidValue name pid value))) res (.pid r') := by
  unfold PidSeries.setPidValue at h
  obtain ⟨v, hv, hr'⟩ := Option.bind_eq_some_iff.mp h
  obtain rfl := Option.some.inj hr'
  refine ⟨rfl, ?_⟩
  rcases hready with hne | hall
  · exact .inl ((addGrowth_spec r name pid value).2 v hv hne)
  · refine .inr (fun name' pid' old hold => ?_)
    unfold PidRates.read at hold
    dsimp only at hold
    rw [PidRates.lookup_setValue] at hold
    unfold Trace.next
    dsimp only
    by_cases hkey : (res, name', pid') = (res, name, pid)
    · -- The process that was read has its value.
      obtain ⟨-, hkey⟩ := Prod.mk.inj hkey
      obtain ⟨rfl, rfl⟩ := Prod.mk.inj hkey
      rw [if_pos rfl, Option.bind_some, Function.update_self, Option.some_inj] at hold
      rw [Function.update_self]
      exact ⟨value, rfl, hold.le⟩
    · rw [Function.update_of_ne hkey]
      refine hall name' pid' old ?_
      by_cases hname : name' = name
      · subst hname
        have hpid : pid' ≠ pid := fun h => hkey (by rw [h])
        rw [if_pos rfl, Option.bind_some, Function.update_of_ne hpid] at hold
        unfold PidRates.read
        cases hlookup : r.values.lookup name' with
        | none =>
            rw [hlookup] at hold
            exact absurd hold (by simp)
        | some m =>
            rw [hlookup] at hold
            exact hold
      · rw [if_neg hname] at hold
        exact hold

/-- A call leaves the numbers of the configuration, and the ressource is ready after a
`nextValue`, or if it was before. -/
theorem call_keeps {real : Option ℚ → Json} {r r' : Series} {c : SeriesCall}
    (hfits : Fits history pollFrequency r) (hready : res ∈ t.sampled → Ready history t res r)
    (horder : t.InOrder (.call res c)) (h : r.call real now c = some r') :
    Fits history pollFrequency r' ∧ Ready history (t.next (.call res c)) res r' := by
  cases r with
  | plain r =>
      cases c with
      | nextValue =>
          obtain rfl := Option.some.inj h
          obtain ⟨hle, hpos, hsize⟩ := length_nextValue now r hfits.1
          exact ⟨⟨hsize, hle⟩, hpos⟩
      | setProperty name val =>
          obtain ⟨-, h⟩ := Option.ite_none_left_eq_some.mp h
          obtain rfl := Option.some.inj h
          obtain ⟨hlen, hsize⟩ := length_setProperty name val r
          exact ⟨⟨hsize.trans hfits.1, hlen.trans_le hfits.2⟩,
            fun hpos => (hready horder hpos).trans_eq hlen.symm⟩
      | _ => exact absurd h (Option.some_ne_none r').symm
  | cpuTicks r ticks =>
      cases c with
      | nextValue =>
          obtain rfl := Option.some.inj h
          obtain ⟨hle, hpos, hsize⟩ := length_nextValue now r hfits.1
          exact ⟨⟨hsize, hle⟩, hpos⟩
      | setProperty name val =>
          obtain ⟨-, h⟩ := Option.ite_none_left_eq_some.mp h
          obtain rfl := Option.some.inj h
          obtain ⟨hlen, hsize⟩ := length_setProperty name val r
          exact ⟨⟨hsize.trans hfits.1, hlen.trans_le hfits.2⟩,
            fun hpos => (hready horder hpos).trans_eq hlen.symm⟩
      | setRaw raw =>
          obtain ⟨-, h⟩ := Option.ite_none_left_eq_some.mp h
          obtain rfl := Option.some.inj h
          obtain ⟨hlen, hsize⟩ := length_setProperties real (ticks.setRaw raw).2 r
          exact ⟨⟨hsize.trans hfits.1, hlen.trans_le hfits.2⟩,
            fun hpos => (hready horder hpos).trans_eq hlen.symm⟩
      | _ => exact absurd h (Option.some_ne_none r').symm
  | tick r =>
      cases c with
      | nextValue =>
          obtain rfl := Option.some.inj h
          obtain ⟨hle, hpos, hsize⟩ := length_nextValue now r.toRessource hfits.1
          exact ⟨⟨hsize, hle, hfits.2.2⟩, hpos⟩
      | setProperty name val =>
          obtain ⟨-, h⟩ := Option.ite_none_left_eq_some.mp h
          obtain rfl := Option.some.inj h
          obtain ⟨hlen, hsize⟩ := length_setProperty name val r.toRessource
          exact ⟨⟨hsize.trans hfits.1, hlen.trans_le hfits.2.1, hfits.2.2⟩,
            fun hpos => (hready horder hpos).trans_eq hlen.symm⟩
      | setTickValue name value =>
          obtain ⟨-, h⟩ := Option.ite_none_left_eq_some.mp h
          obtain rfl := Option.some.inj h
          obtain ⟨hlen, hsize⟩ :=
            length_setProperty name (.int (r.tickValue name value)) r.toRessource
          exact ⟨⟨hsize.trans hfits.1, hlen.trans_le hfits.2.1, hfits.2.2⟩,
            fun hpos => (hready horder hpos).trans_eq hlen.symm⟩
      | _ => exact absurd h (Option.some_ne_none r').symm
  | pid r =>
      cases c with
      | nextValue =>
          obtain ⟨q, hq, rfl⟩ := Option.map_eq_some_iff.mp h
          obtain ⟨hsize, hvalues, hne⟩ := (nextValue_pid r now).2 q hq
          refine ⟨hsize.trans hfits, ?_⟩
          by_cases hempty : r.values = []
          · -- Nothing was read yet.
            refine .inr (fun name pid old hold => ?_)
            rw [hvalues, hempty] at hold
            exact absurd hold (Option.some_ne_none old).symm
          · exact .inl (hne hempty)
      | setPidValue name pid value =>
          obtain ⟨q, hq, rfl⟩ := Option.map_eq_some_iff.mp h
          obtain ⟨hsize, hafter⟩ := ready_setPidValue (hready horder.1) hq
          exact ⟨hsize.trans hfits, hafter⟩
      | _ => exact absurd h (Option.some_ne_none r').symm

end Calls

/-! ### One step -/

/-- What a collector that works in order keeps: its ressources have the numbers of the
configuration, and those that were asked for a sample are ready. -/
structure Inv (t : Trace) (s : State) : Prop where
  fits : ∀ res r, s.ressources res = some r → Fits s.history s.pollFrequency r
  ready : s.active = true → ∀ res ∈ t.sampled,
    ∃ r, s.ressources res = some r ∧ Ready s.history t res r

/-- A call in order is defined if and only if the configuration settles it. -/
theorem step_defined_iff {t : Trace} {s : State} (h : Inv t s) {e : Event} (horder : t.InOrder e) :
    s.Defined e ↔ Settled s e := by
  cases e with
  | call res c =>
      refine forall_congr' (fun hactive => forall_congr' (fun r => forall_congr' (fun hr => ?_)))
      refine defined_iff (h.fits res r hr) (fun hsampled => ?_) horder
      obtain ⟨r', hr', hready⟩ := h.ready hactive res hsampled
      rw [hr, Option.some_inj] at hr'
      rw [hr']
      exact hready
  | _ => exact Iff.rfl

theorem eq_of_asUInt {n m : Nat} (h : asUInt n = some m) : m = n := by
  unfold asUInt at h
  split at h
  · exact (Option.some.inj h).symm
  · exact absurd h (Option.some_ne_none m).symm

/-- A ressource has the numbers of the configuration when it is constructed. -/
theorem fits_make {s : State} {c : SeriesClass} {r : Series} (h : s.make c = some r) :
    Fits s.history s.pollFrequency r := by
  cases c with
  | plain typeName =>
      obtain ⟨size, hsize, h⟩ := Option.bind_eq_some_iff.mp h
      obtain rfl := Option.some.inj h
      exact ⟨eq_of_asUInt hsize, Nat.zero_le _⟩
  | cpuTicks =>
      obtain ⟨size, hsize, h⟩ := Option.bind_eq_some_iff.mp h
      obtain rfl := Option.some.inj h
      exact ⟨eq_of_asUInt hsize, Nat.zero_le _⟩
  | tick typeName =>
      obtain ⟨size, hsize, h⟩ := Option.bind_eq_some_iff.mp h
      obtain ⟨freq, hfreq, h⟩ := Option.bind_eq_some_iff.mp h
      obtain rfl := Option.some.inj h
      exact ⟨eq_of_asUInt hsize, Nat.zero_le _, eq_of_asUInt hfreq⟩
  | pid factor =>
      obtain ⟨size, hsize, h⟩ := Option.bind_eq_some_iff.mp h
      obtain rfl := Option.some.inj h
      exact eq_of_asUInt hsize

/-- Without a collector that goes on, only the numbers are left to keep. -/
theorem inv_of_inactive {t : Trace} {s : State} (hactive : s.active = false)
    (hfits : ∀ res r, s.ressources res = some r → Fits s.history s.pollFrequency r) : Inv t s :=
  ⟨hfits, fun h => absurd (hactive.symm.trans h) Bool.false_ne_true⟩

theorem active_throw (s : State) : s.throw.active = false := by
  unfold State.throw State.active
  by_cases h : s.mode = .building
  · rw [if_pos h]
    rfl
  · rw [if_neg h]
    rfl

/-- The readings of other ressources do not count. -/
theorem ready_next {history : Nat} {t : Trace} {res res' : String} (hne : res' ≠ res)
    (c : SeriesCall) {r : Series} (h : Ready history t res' r) :
    Ready history (t.next (.call res c)) res' r := by
  cases r with
  | pid r =>
      rcases h with h | h
      · exact .inl h
      · refine .inr (fun name pid old hold => ?_)
        obtain ⟨last, hlast, hle⟩ := h name pid old hold
        refine ⟨last, ?_, hle⟩
        cases c with
        | setPidValue name' pid' value =>
            show Function.update t.readings (res, name', pid') (some value) (res', name, pid) = _
            rw [Function.update_of_ne (fun heq => hne (congrArg Prod.fst heq))]
            exact hlast
        | _ => exact hlast
  | _ => exact h

/-- A ressource is constructed under a name that was not asked for a sample. -/
theorem inv_assign {t : Trace} {s : State} (h : Inv t s) {res : String}
    (hnew : res ∉ t.sampled) (c : SeriesClass) : Inv t (s.assign res c) := by
  unfold State.assign
  cases hmake : s.make c with
  | none => exact inv_of_inactive (active_throw s) h.fits
  | some r =>
      refine ⟨fun res' r' hr' => ?_, fun hactive res' hsampled => ?_⟩
      · by_cases heq : res' = res
        · subst heq
          obtain rfl : r = r' := by simpa using hr'
          exact fits_make hmake
        · dsimp only at hr'
          rw [Function.update_of_ne heq] at hr'
          exact h.fits res' r' hr'
      · have hne : res' ≠ res := fun heq => hnew (heq ▸ hsampled)
        dsimp only
        rw [Function.update_of_ne hne]
        exact h.ready hactive res' hsampled

/-- A call in order. -/
theorem inv_call (real : Option ℚ → Json) {t : Trace} {s : State} (h : Inv t s)
    (hactive : s.active = true) {res : String} {c : SeriesCall}
    (horder : t.InOrder (.call res c)) : Inv (t.next (.call res c)) (s.call real res c) := by
  unfold State.call
  cases hcall : (s.ressources res).bind (fun r => r.call real (s.clock s.steps) c) with
  | none => exact inv_of_inactive rfl h.fits
  | some r' =>
      obtain ⟨r, hr, hcall⟩ := Option.bind_eq_some_iff.mp hcall
      have hready : res ∈ t.sampled → Ready s.history t res r := by
        intro hsampled
        obtain ⟨r₁, hr₁, hready⟩ := h.ready hactive res hsampled
        rw [hr, Option.some_inj] at hr₁
        rw [hr₁]
        exact hready
      obtain ⟨hfits', hready'⟩ := call_keeps (h.fits res r hr) hready horder hcall
      refine ⟨fun res' q hq => ?_, fun _ res' hsampled => ?_⟩
      · by_cases heq : res' = res
        · subst heq
          obtain rfl : r' = q := by simpa using hq
          exact hfits'
        · dsimp only at hq
          rw [Function.update_of_ne heq] at hq
          exact h.fits res' q hq
      · dsimp only
        by_cases heq : res' = res
        · rw [heq, Function.update_self]
          exact ⟨r', rfl, hready'⟩
        · have hbefore : res' ∈ t.sampled := by
            cases c with
            | nextValue => exact (List.mem_cons.mp hsampled).resolve_left heq
            | _ => exact hsampled
          rw [Function.update_of_ne heq]
          obtain ⟨q, hq, hreadyq⟩ := h.ready hactive res' hbefore
          exact ⟨q, hq, ready_next heq c hreadyq⟩

/-- An event that is carried out. -/
theorem inv_act (real : Option ℚ → Json) {t : Trace} {s : State} (h : Inv t s)
    (hactive : s.active = true) {e : Event} (horder : t.InOrder e) :
    Inv (t.next e) (s.act real e) := by
  cases e with
  | assign res c => exact inv_assign h horder c
  | addRessource res c =>
      show Inv t (if (s.ressources res).isSome then s else s.assign res c)
      split
      · exact h
      · -- A ressource that was asked for a sample is there.
        rename_i hnone
        refine inv_assign h (fun hsampled => hnone ?_) c
        obtain ⟨r, hr, -⟩ := h.ready hactive res hsampled
        rw [hr]
        rfl
  | call res c => exact inv_call real h hactive horder
  | throw => exact inv_of_inactive (active_throw s) h.fits
  | built => exact ⟨h.fits, fun _ => h.ready hactive⟩
  | pass => exact ⟨h.fits, fun _ res hres => absurd hres List.not_mem_nil⟩

/-- The step of a collector that works in order. -/
theorem inv_step (real : Option ℚ → Json) {t : Trace} {s : State} (h : Inv t s) {e : Event}
    (horder : t.InOrder e) : Inv (t.next e) (s.step real e) := by
  -- The clock is no part of what is kept.
  have hclock : Inv t { s with steps := s.steps + 1 } := ⟨h.fits, h.ready⟩
  have hother : Inv (t.next e) (if s.active then { s with steps := s.steps + 1 }.act real e
      else { s with steps := s.steps + 1 }) := by
    split
    · rename_i hactive
      exact inv_act real hclock hactive horder
    · rename_i hactive
      exact inv_of_inactive (Bool.not_eq_true _ ▸ hactive) h.fits
  cases e with
  | pass =>
      show Inv {} (if s.mode = .thrown then _ else _)
      split
      · exact ⟨h.fits, fun _ res hres => absurd hres List.not_mem_nil⟩
      · exact ⟨h.fits, fun _ res hres => absurd hres List.not_mem_nil⟩
  | _ => exact hother

/-! ### Runs -/

/-- The events are in order, from a trace on. -/
def RunsInOrder (t : Trace) (es : List Event) : Prop := Meets Trace.next Trace.InOrder t es

/-- A run in order: all its calls are defined if and only if the configuration settles them. -/
theorem meets_defined_iff (real : Option ℚ → Json) {t : Trace} {s : State} (h : Inv t s)
    {es : List Event} (horder : RunsInOrder t es) :
    Meets (State.step real) State.Defined s es ↔ Meets (State.step real) Settled s es := by
  induction es generalizing t s with
  | nil => exact Iff.rfl
  | cons e es ih =>
      obtain ⟨he, hes⟩ := horder
      exact and_congr (step_defined_iff h he) (ih (inv_step real h he) hes)

end SafeCalls

end WatchedAgent.Proofs
