import WatchedAgent.Lib.Run
import WatchedAgent.Model.Documents

/-!
# `WatchedAgent.Proofs.DeclaredNames`: a collector that sets what it has declared

A property that a ressource has got with `addProperty` stays declared, and the members of its
samples are the time and properties that were set. `SetsDeclared` says of a step that it sets only
what is declared by then, and `inv_step` that such a step keeps the samples within what is declared.

`stepOf_step` says what a step does to the ressources and to their maps: nothing, or a ressource is
made, called, or gets a property.
-/

set_option autoImplicit false

namespace WatchedAgent.Proofs.Documented

open WatchedAgent.Lib
open WatchedAgent.Lib.Run (Meets)
open WatchedAgent.Model
open WatchedAgent.Model.Collecting

/-! ### Names -/

/-- The classes, without their data. -/
inductive Kind where
  | plain
  | cpuTicks
  | tick
  | pid
  deriving DecidableEq

def kindOf : Series → Kind
  | .plain _ => .plain
  | .cpuTicks _ _ => .cpuTicks
  | .tick _ => .tick
  | .pid _ => .pid

def kindOfClass : SeriesClass → Kind
  | .plain _ => .plain
  | .cpuTicks => .cpuTicks
  | .tick _ => .tick
  | .pid _ => .pid

/-- The names of the members of each sample. -/
def members : Series → List (List String)
  | .plain r => r.v.map (fun s => s.map Prod.fst)
  | .cpuTicks r _ => r.v.map (fun s => s.map Prod.fst)
  | .tick r => r.v.map (fun s => s.map Prod.fst)
  | .pid r => r.v.map (fun s => s.map Prod.fst)

/-- The members of the samples are the time and some of the names. -/
def NamedIn {β : Type} (names : List String) (v : List (List (String × β))) : Prop :=
  ∀ s ∈ v, ∀ e ∈ s, e.1 = "timestamp" ∨ e.1 ∈ names

/-- The same of a ressource. The values of one of processes get into its samples later. -/
def Named (names : List String) : Series → Prop
  | .plain r => NamedIn names r.v
  | .cpuTicks r _ => NamedIn names r.v
  | .tick r => NamedIn names r.v
  | .pid r => NamedIn names r.v ∧ ∀ e ∈ r.values, e.1 ∈ names

/-- The names that a call sets in a ressource of a kind. -/
def SetsName : SeriesCall → Kind → String → Prop
  | .nextValue, _, _ => False
  | .setProperty name _, k, n => k ≠ .pid ∧ n = name
  | .setRaw _, k, n => k = .cpuTicks ∧ n ∈ CpuTicks.ids ∧ n ≠ "idle"
  | .setTickValue name _, k, n => k = .tick ∧ n = name
  | .setPidValue name _ _, k, n => k = .pid ∧ n = name

theorem Named.members {names : List String} {r : Series} (h : Named names r) :
    ∀ s ∈ members r, ∀ n ∈ s, n = "timestamp" ∨ n ∈ names := by
  have hlist : ∀ {β : Type} {v : List (List (String × β))}, NamedIn names v →
      ∀ s ∈ v.map (fun s => s.map Prod.fst), ∀ n ∈ s, n = "timestamp" ∨ n ∈ names := by
    intro β v hv s hs n hn
    obtain ⟨sample, hsample, rfl⟩ := List.mem_map.mp hs
    obtain ⟨e, he, rfl⟩ := List.mem_map.mp hn
    exact hv sample hsample e he
  cases r with
  | plain r => exact hlist h
  | cpuTicks r ticks => exact hlist h
  | tick r => exact hlist h
  | pid r => exact hlist h.1

theorem Named.mono {names names' : List String} (hsub : names ⊆ names') {r : Series}
    (h : Named names r) : Named names' r := by
  have hlist : ∀ {β : Type} {v : List (List (String × β))}, NamedIn names v → NamedIn names' v :=
    fun hv s hs e he => (hv s hs e he).imp_right (fun hmem => hsub hmem)
  cases r with
  | plain r => exact hlist h
  | cpuTicks r ticks => exact hlist h
  | tick r => exact hlist h
  | pid r => exact ⟨hlist h.1, fun e he => hsub (h.2 e he)⟩

section Lists
variable {β : Type} {names : List String} {v : List (List (String × β))}

theorem NamedIn.head (h : NamedIn names v) :
    ∀ e ∈ v.headD [], e.1 = "timestamp" ∨ e.1 ∈ names := by
  cases v with
  | nil => simp
  | cons s v => exact h s List.mem_cons_self

/-- A new first sample. -/
theorem NamedIn.cons (h : NamedIn names v) {s : List (String × β)}
    (hs : ∀ e ∈ s, e.1 = "timestamp" ∨ e.1 ∈ names) : NamedIn names (s :: v) := by
  intro t ht
  rcases List.mem_cons.mp ht with rfl | ht
  · exact hs
  · exact h t ht

theorem NamedIn.tail {s : List (String × β)} (h : NamedIn names (s :: v)) : NamedIn names v :=
  fun t ht => h t (List.mem_cons_of_mem s ht)

theorem NamedIn.take (h : NamedIn names v) (n : Nat) : NamedIn names (v.take n) :=
  fun t ht => h t (List.mem_of_mem_take ht)

end Lists

/-- A member is the one that was set, or was there. -/
theorem mem_insert {key : String} {value : Json} {ms : Sample} {e : String × Json}
    (h : e ∈ Json.insert key value ms) : e.1 = key ∨ e ∈ ms := by
  induction ms with
  | nil => exact .inl (congrArg Prod.fst (List.mem_singleton.mp h))
  | cons m ms ih =>
      unfold Json.insert at h
      split at h
      · rcases List.mem_cons.mp h with rfl | h
        · exact .inl rfl
        · exact .inr (List.mem_cons_of_mem _ h)
      · rcases List.mem_cons.mp h with rfl | h
        · exact .inr List.mem_cons_self
        · exact (ih h).imp_right (List.mem_cons_of_mem _)

theorem mem_setProperty {name : String} {val : ℚ} {ms : Members} {e : String × ℚ}
    (h : e ∈ ms.setProperty name val) : e.1 = name ∨ e ∈ ms := by
  induction ms with
  | nil => exact .inl (congrArg Prod.fst (List.mem_singleton.mp h))
  | cons m ms ih =>
      unfold MembersOf.setProperty at h
      split at h
      · rcases List.mem_cons.mp h with rfl | h
        · exact .inl rfl
        · exact .inr (List.mem_cons_of_mem _ h)
      · rcases List.mem_cons.mp h with rfl | h
        · exact .inr List.mem_cons_self
        · exact (ih h).imp_right (List.mem_cons_of_mem _)

section Calls
variable {names : List String}

theorem namedIn_nextValue {r : Ressource} (h : NamedIn names r.v) (now : Int) :
    NamedIn names (r.nextValue now).v := by
  refine NamedIn.take (h.cons fun e he => ?_) r.size
  rcases mem_insert he with hkey | he
  · exact .inl hkey
  · exact h.head e he

theorem namedIn_setProperty {r : Ressource} (h : NamedIn names r.v) {name : String}
    (hname : name ∈ names) (val : Json) : NamedIn names (r.setProperty name val).v := by
  unfold Ressource.setProperty
  split
  · exact h
  · rename_i s v hv
    rw [hv] at h
    refine h.tail.cons fun e he => ?_
    rcases mem_insert he with hkey | he
    · exact .inr (hkey ▸ hname)
    · exact h s List.mem_cons_self e he

theorem namedIn_setProperties (real : Option ℚ → Json) {r : Ressource} (h : NamedIn names r.v)
    {properties : Published} (hnames : ∀ e ∈ properties, e.1 ∈ names) :
    NamedIn names (setProperties real properties r).v := by
  unfold setProperties
  induction properties generalizing r with
  | nil => exact h
  | cons e properties ih =>
      exact ih (namedIn_setProperty h (hnames e List.mem_cons_self) _)
        (fun e he => hnames e (List.mem_cons_of_mem _ he))

theorem namedIn_assign {v v' : List Members} (h : NamedIn names v) {name : String}
    (hname : name ∈ names) {val : ℚ} (hassign : PidSeries.assign name val v = some v') :
    NamedIn names v' := by
  cases v with
  | nil => exact absurd hassign (by simp [PidSeries.assign])
  | cons s v =>
      obtain rfl : s.setProperty name val :: v = v' := Option.some.inj hassign
      refine h.tail.cons fun e he => ?_
      rcases mem_setProperty he with hkey | he
      · exact .inr (hkey ▸ hname)
      · exact h s List.mem_cons_self e he

/-- All values start at zero in a new sample. -/
theorem named_pid_nextValue {r r' : PidSeries} (h : Named names (.pid r)) {now : ℚ}
    (hnext : r.nextValue now = some r') : Named names (.pid r') := by
  obtain ⟨hv, hvalues⟩ := h
  obtain ⟨v, hassign, hr'⟩ := Option.bind_eq_some_iff.mp hnext
  obtain rfl := Option.some.inj hr'
  refine ⟨?_, hvalues⟩
  have hstart : NamedIn names (if r.values.isEmpty then r.v else r.insertSample now) := by
    split
    · exact hv
    · refine NamedIn.take (hv.cons fun e he => ?_) r.size
      rcases mem_setProperty he with hkey | he
      · exact .inl hkey
      · exact hv.head e he
  have hfold : ∀ (l : List (String × PidMap Nat)) (v v' : List Members),
      (∀ e ∈ l, e.1 ∈ names) → NamedIn names v →
      l.foldlM (fun v i => PidSeries.assign i.1 0 v) v = some v' → NamedIn names v' := by
    intro l
    induction l with
    | nil =>
        intro v v' _ hv h
        exact Option.some.inj h ▸ hv
    | cons i l ih =>
        intro v v' hl hv h
        rw [List.foldlM_cons] at h
        obtain ⟨w, hw, h⟩ := Option.bind_eq_some_iff.mp h
        exact ih w v' (fun e he => hl e (List.mem_cons_of_mem _ he))
          (namedIn_assign hv (hl i List.mem_cons_self) hw) h
  exact hfold _ _ _ hvalues hstart hassign

theorem mem_setValue {name : String} {pid value : Nat} {values : List (String × PidMap Nat)}
    {e : String × PidMap Nat} (h : e ∈ PidRessource.setValue name pid value values) :
    e.1 = name ∨ ∃ e' ∈ values, e'.1 = e.1 := by
  induction values with
  | nil => exact .inl (congrArg Prod.fst (List.mem_singleton.mp h))
  | cons m values ih =>
      unfold PidRessource.setValue at h
      split at h
      · rcases List.mem_cons.mp h with rfl | h
        · exact .inl rfl
        · exact .inr ⟨e, List.mem_cons_of_mem _ h, rfl⟩
      · rcases List.mem_cons.mp h with rfl | h
        · exact .inr ⟨_, List.mem_cons_self, rfl⟩
        · rcases ih h with hkey | ⟨e', he', heq⟩
          · exact .inl hkey
          · exact .inr ⟨e', List.mem_cons_of_mem _ he', heq⟩

theorem named_setPidValue {r r' : PidSeries} (h : Named names (.pid r)) {name : String}
    (hname : name ∈ names) {pid value : Nat} (hset : r.setPidValue name pid value = some r') :
    Named names (.pid r') := by
  obtain ⟨hv, hvalues⟩ := h
  obtain ⟨v, hgrowth, hr'⟩ := Option.bind_eq_some_iff.mp hset
  obtain rfl := Option.some.inj hr'
  refine ⟨?_, fun e he => ?_⟩
  · unfold PidSeries.addGrowth at hgrowth
    split at hgrowth
    · split at hgrowth
      · exact namedIn_assign hv hname hgrowth
      · exact Option.some.inj hgrowth ▸ hv
    · exact Option.some.inj hgrowth ▸ hv
  · rcases mem_setValue he with hkey | ⟨e', he', heq⟩
    · exact hkey ▸ hname
    · exact heq ▸ hvalues e' he'

/-- What `setRaw` sets. -/
theorem name_of_mem_setRaw {ticks : CpuTicks} {raw : List String} {e : String × Option ℚ}
    (h : e ∈ (ticks.setRaw raw).2) : e.1 ∈ CpuTicks.ids ∧ e.1 ≠ "idle" := by
  unfold CpuTicks.setRaw at h
  obtain ⟨id, hid, rfl⟩ := List.mem_map.mp h
  obtain ⟨hmem, hne⟩ := List.mem_filter.mp hid
  exact ⟨hmem, by simpa using hne⟩

/-- A call sets only its own names. -/
theorem call_named {real : Option ℚ → Json} {now : Int} {r r' : Series} {c : SeriesCall}
    (h : Named names r) (hcall : r.call real now c = some r')
    (hnames : ∀ n, SetsName c (kindOf r) n → n ∈ names) : Named names r' := by
  cases r with
  | plain r =>
      cases c with
      | nextValue =>
          obtain rfl := Option.some.inj hcall
          exact namedIn_nextValue h now
      | setProperty name val =>
          obtain ⟨-, hcall⟩ := Option.ite_none_left_eq_some.mp hcall
          obtain rfl := Option.some.inj hcall
          exact namedIn_setProperty h (hnames name ⟨by simp [kindOf], rfl⟩) val
      | _ => exact absurd hcall (Option.some_ne_none r').symm
  | cpuTicks r ticks =>
      cases c with
      | nextValue =>
          obtain rfl := Option.some.inj hcall
          exact namedIn_nextValue h now
      | setProperty name val =>
          obtain ⟨-, hcall⟩ := Option.ite_none_left_eq_some.mp hcall
          obtain rfl := Option.some.inj hcall
          exact namedIn_setProperty h (hnames name ⟨by simp [kindOf], rfl⟩) val
      | setRaw raw =>
          obtain ⟨-, hcall⟩ := Option.ite_none_left_eq_some.mp hcall
          obtain rfl := Option.some.inj hcall
          exact namedIn_setProperties real h fun e he => hnames e.1 ⟨rfl, name_of_mem_setRaw he⟩
      | _ => exact absurd hcall (Option.some_ne_none r').symm
  | tick r =>
      cases c with
      | nextValue =>
          obtain rfl := Option.some.inj hcall
          exact namedIn_nextValue h now
      | setProperty name val =>
          obtain ⟨-, hcall⟩ := Option.ite_none_left_eq_some.mp hcall
          obtain rfl := Option.some.inj hcall
          exact namedIn_setProperty h (hnames name ⟨by simp [kindOf], rfl⟩) val
      | setTickValue name value =>
          obtain ⟨-, hcall⟩ := Option.ite_none_left_eq_some.mp hcall
          obtain rfl := Option.some.inj hcall
          exact namedIn_setProperty h (hnames name ⟨rfl, rfl⟩) _
      | _ => exact absurd hcall (Option.some_ne_none r').symm
  | pid r =>
      cases c with
      | nextValue =>
          obtain ⟨q, hq, rfl⟩ := Option.map_eq_some_iff.mp hcall
          exact named_pid_nextValue h hq
      | setPidValue name pid value =>
          obtain ⟨q, hq, rfl⟩ := Option.map_eq_some_iff.mp hcall
          exact named_setPidValue h (hnames name ⟨rfl, rfl⟩) hq
      | _ => exact absurd hcall (Option.some_ne_none r').symm

/-- A call leaves the class of a ressource. -/
theorem kindOf_call {real : Option ℚ → Json} {now : Int} {r r' : Series} {c : SeriesCall}
    (hcall : r.call real now c = some r') : kindOf r' = kindOf r := by
  have hmap : ∀ {o : Option PidSeries}, o.map .pid = some r' → kindOf r' = .pid := by
    intro o h
    obtain ⟨q, -, rfl⟩ := Option.map_eq_some_iff.mp h
    rfl
  cases r with
  | plain r =>
      cases c with
      | nextValue => exact (congrArg kindOf (Option.some.inj hcall)).symm
      | setProperty name val =>
          obtain ⟨-, hcall⟩ := Option.ite_none_left_eq_some.mp hcall
          exact (congrArg kindOf (Option.some.inj hcall)).symm
      | _ => exact absurd hcall (Option.some_ne_none r').symm
  | cpuTicks r ticks =>
      cases c with
      | nextValue => exact (congrArg kindOf (Option.some.inj hcall)).symm
      | setProperty name val =>
          obtain ⟨-, hcall⟩ := Option.ite_none_left_eq_some.mp hcall
          exact (congrArg kindOf (Option.some.inj hcall)).symm
      | setRaw raw =>
          obtain ⟨-, hcall⟩ := Option.ite_none_left_eq_some.mp hcall
          exact (congrArg kindOf (Option.some.inj hcall)).symm
      | _ => exact absurd hcall (Option.some_ne_none r').symm
  | tick r =>
      cases c with
      | nextValue => exact (congrArg kindOf (Option.some.inj hcall)).symm
      | setProperty name val =>
          obtain ⟨-, hcall⟩ := Option.ite_none_left_eq_some.mp hcall
          exact (congrArg kindOf (Option.some.inj hcall)).symm
      | setTickValue name value =>
          obtain ⟨-, hcall⟩ := Option.ite_none_left_eq_some.mp hcall
          exact (congrArg kindOf (Option.some.inj hcall)).symm
      | _ => exact absurd hcall (Option.some_ne_none r').symm
  | pid r =>
      cases c with
      | nextValue => exact hmap hcall
      | setPidValue name pid value => exact hmap hcall
      | _ => exact absurd hcall (Option.some_ne_none r').symm

end Calls

/-! ### One step -/

/-- The names that a ressource declares. -/
def namesOf (s : DocState) (res : String) : List String := (s.declaredOf res).map Prod.fst

theorem mem_addProperty (declared : Declared) (p : Property) (n : String) :
    n ∈ (addProperty declared p).map Prod.fst ↔ n ∈ declared.map Prod.fst ∨ n = p.p_name := by
  simpa [addProperty] using OrderedMap.exists_mem_insert_iff (p.p_desc, p.p_typename) declared

theorem mem_foldl_addProperty (properties : List Property) (declared : Declared) (n : String) :
    n ∈ (properties.foldl addProperty declared).map Prod.fst ↔
      n ∈ declared.map Prod.fst ∨ n ∈ properties.map Property.p_name := by
  induction properties generalizing declared with
  | nil => simp
  | cons p properties ih =>
      rw [List.foldl_cons, ih, mem_addProperty, List.map_cons, List.mem_cons, or_assoc]

section Steps
variable {real : Option ℚ → Json} {own : SeriesClass → List Property} {s : DocState}

/-- What a step does to the ressources and to their maps. -/
inductive StepOf (real : Option ℚ → Json) (own : SeriesClass → List Property) (s s' : DocState) :
    DocEvent → Prop
  | same (e : DocEvent) (hr : s'.state.ressources = s.state.ressources)
      (hd : s'.declared = s.declared) : StepOf real own s s' e
  | made (e : Event) (res : String) (c : SeriesClass) (r : Series)
      (he : e = .assign res c ∨ e = .addRessource res c ∧ s.state.ressources res = none)
      (hmake : s.state.make c = some r)
      (hr : s'.state.ressources = Function.update s.state.ressources res (some r))
      (hd : s'.declared = OrderedMap.insert res ((own c).foldl addProperty []) s.declared) :
      StepOf real own s s' (.event e)
  | called (res : String) (c : SeriesCall) (r r' : Series) (now : Int)
      (hactive : s.state.active = true) (hold : s.state.ressources res = some r)
      (hcall : r.call real now c = some r')
      (hr : s'.state.ressources = Function.update s.state.ressources res (some r'))
      (hd : s'.declared = s.declared) : StepOf real own s s' (.event (.call res c))
  | declared (res : String) (p : Property) (r : Series)
      (hold : s.state.ressources res = some r)
      (hr : s'.state.ressources = s.state.ressources)
      (hd : s'.declared = OrderedMap.insert res (addProperty (s.declaredOf res) p) s.declared) :
      StepOf real own s s' (.addProperty res p)

/-- The state of a step that is carried out, at the count of the steps. -/
def counted (s : State) : State := { s with steps := s.steps + 1 }

theorem step_of_active {s : State} (hactive : s.active = true) {e : Event} (he : e ≠ .pass) :
    s.step real e = (counted s).act real e := by
  cases e with
  | pass => exact absurd rfl he
  | _ => exact if_pos hactive

theorem step_of_inactive {s : State} (hactive : s.active = false) (e : Event) :
    (s.step real e).ressources = s.ressources := by
  have hnot : ¬ (counted s).active = true := fun h => Bool.false_ne_true (hactive.symm.trans h)
  cases e with
  | pass =>
      show (if s.mode = .thrown then _ else _ : State).ressources = s.ressources
      split <;> rfl
  | _ => exact (congrArg State.ressources (if_neg hnot)).trans rfl

theorem assign_none {s : State} (res : String) {c : SeriesClass} (hmake : s.make c = none) :
    ((counted s).assign res c).ressources = s.ressources := by
  have hcounted : (counted s).make c = none := by
    cases c <;> exact hmake
  rw [State.assign, hcounted]
  rfl

theorem assign_some {s : State} (res : String) {c : SeriesClass} {r : Series}
    (hmake : s.make c = some r) :
    ((counted s).assign res c).ressources = Function.update s.ressources res (some r) := by
  have hcounted : (counted s).make c = some r := by
    cases c <;> exact hmake
  rw [State.assign, hcounted]
  rfl

/-- What a call makes of its ressource, at the time of the step. -/
def callOf (real : Option ℚ → Json) (s : State) (res : String) (c : SeriesCall) : Option Series :=
  (s.ressources res).bind (fun r => r.call real (s.clock s.steps) c)

theorem call_none {s : State} {res : String} {c : SeriesCall} (h : callOf real s res c = none) :
    (s.call real res c).ressources = s.ressources := by
  unfold callOf at h
  rw [State.call, h]

theorem call_some {s : State} {res : String} {c : SeriesCall} {r : Series}
    (h : callOf real s res c = some r) :
    (s.call real res c).ressources = Function.update s.ressources res (some r) := by
  unfold callOf at h
  rw [State.call, h]

/-- The step of a new ressource. -/
theorem stepOf_assign {e : Event} {res : String} {c : SeriesClass}
    (he : e = .assign res c ∨ e = .addRessource res c ∧ s.state.ressources res = none)
    (hstep : s.state.step real e = (counted s.state).assign res c)
    (hmakes : s.makes e = if (s.state.make c).isSome then some (res, c) else none) :
    StepOf real own s (s.step real own (.event e)) (.event e) := by
  cases hmake : s.state.make c with
  | none =>
      refine .same _ ?_ ?_
      · exact (congrArg State.ressources hstep).trans (assign_none res hmake)
      · simp [DocState.step, hmakes, hmake]
  | some r =>
      refine .made e res c r he hmake ?_ ?_
      · exact (congrArg State.ressources hstep).trans (assign_some res hmake)
      · simp [DocState.step, hmakes, hmake]

/-- A step that makes no ressource and calls none. -/
theorem stepOf_same {e : Event} (hr : (s.state.step real e).ressources = s.state.ressources)
    (hmakes : s.makes e = none) : StepOf real own s (s.step real own (.event e)) (.event e) :=
  .same _ hr (by simp [DocState.step, hmakes])

/-- The steps of a collector. -/
theorem stepOf_event (e : Event) : StepOf real own s (s.step real own (.event e)) (.event e) := by
  cases hactive : s.state.active with
  | false =>
      refine stepOf_same (step_of_inactive hactive e) ?_
      cases e <;> simp [DocState.makes, hactive]
  | true =>
      cases e with
      | assign res c =>
          exact stepOf_assign (.inl rfl) (step_of_active hactive (by simp))
            (by simp [DocState.makes, hactive])
      | addRessource res c =>
          have hstep := @step_of_active real s.state hactive (.addRessource res c) (by simp)
          cases hold : s.state.ressources res with
          | none =>
              refine stepOf_assign (.inr ⟨rfl, hold⟩) (hstep.trans ?_) ?_
              · simp [State.act, counted, hold]
              · simp [DocState.makes, hactive, hold]
          | some r =>
              refine stepOf_same ?_ ?_
              · simp [hstep, State.act, counted, hold]
              · simp [DocState.makes, hold]
      | call res c =>
          have hstep := @step_of_active real s.state hactive (.call res c) (by simp)
          have hmakes : s.makes (.call res c) = none := rfl
          cases hcall : callOf real (counted s.state) res c with
          | none => exact stepOf_same ((congrArg State.ressources hstep).trans (call_none hcall)) rfl
          | some r' =>
              obtain ⟨r, hold, hr'⟩ := Option.bind_eq_some_iff.mp hcall
              exact .called res c r r' _ hactive hold hr'
                ((congrArg State.ressources hstep).trans (call_some hcall))
                (by simp [DocState.step, hmakes])
      | throw =>
          refine stepOf_same ?_ rfl
          rw [step_of_active hactive (by simp)]
          rfl
      | built =>
          refine stepOf_same ?_ rfl
          rw [step_of_active hactive (by simp)]
          rfl
      | pass =>
          refine stepOf_same ?_ rfl
          show (if s.state.mode = .thrown then _ else _ : State).ressources = s.state.ressources
          split <;> rfl

/-- Each step does one of four things. -/
theorem stepOf_step (e : DocEvent) : StepOf real own s (s.step real own e) e := by
  cases e with
  | event e => exact stepOf_event e
  | addProperty res p =>
      cases hactive : s.state.active with
      | false => exact .same _ (by simp [DocState.step, hactive]) (by simp [DocState.step, hactive])
      | true =>
          cases hold : s.state.ressources res with
          | none =>
              exact .same _ (by simp [DocState.step, hactive, hold])
                (by simp [DocState.step, hactive, hold])
          | some r =>
              exact .declared res p r hold (by simp [DocState.step, hactive, hold])
                (by simp [DocState.step, hactive, hold])

/-! ### The invariant -/

theorem declaredOf_insert {s s' : DocState} {res : String} {declared : Declared}
    (hd : s'.declared = OrderedMap.insert res declared s.declared) (res' : String) :
    s'.declaredOf res' = if res' = res then declared else s.declaredOf res' := by
  unfold DocState.declaredOf
  rw [hd, OrderedMap.lookup_insert]
  split <;> rfl

theorem isSome_insert {s s' : DocState} {res : String} {declared : Declared}
    (hd : s'.declared = OrderedMap.insert res declared s.declared) {res' : String}
    (h : res' = res ∨ (s.declared.lookup res').isSome = true) :
    (s'.declared.lookup res').isSome = true := by
  rw [hd, OrderedMap.lookup_insert]
  split
  · rfl
  · rename_i hne
    exact h.resolve_left hne

/-- A new ressource has no samples. -/
theorem named_make {s : State} {c : SeriesClass} {r : Series} (h : s.make c = some r)
    (names : List String) : Named names r ∧ kindOf r = kindOfClass c := by
  have hnil : NamedIn names ([] : List Sample) := fun t ht => absurd ht List.not_mem_nil
  cases c with
  | plain typeName =>
      obtain ⟨size, -, hr⟩ := Option.bind_eq_some_iff.mp h
      obtain rfl := Option.some.inj hr
      exact ⟨hnil, rfl⟩
  | cpuTicks =>
      obtain ⟨size, -, hr⟩ := Option.bind_eq_some_iff.mp h
      obtain rfl := Option.some.inj hr
      exact ⟨hnil, rfl⟩
  | tick typeName =>
      obtain ⟨size, -, hr⟩ := Option.bind_eq_some_iff.mp h
      obtain ⟨freq, -, hr⟩ := Option.bind_eq_some_iff.mp hr
      obtain rfl := Option.some.inj hr
      exact ⟨hnil, rfl⟩
  | pid factor =>
      obtain ⟨size, -, hr⟩ := Option.bind_eq_some_iff.mp h
      obtain rfl := Option.some.inj hr
      exact ⟨⟨fun t ht => absurd ht List.not_mem_nil, fun e he => absurd he List.not_mem_nil⟩, rfl⟩

/-- A call that is carried out sets only names that its ressource declares. -/
def SetsDeclared (s : DocState) : DocEvent → Prop
  | .event (.call res c) => s.state.active = true → ∀ r, s.state.ressources res = some r →
      ∀ n, SetsName c (kindOf r) n → n ∈ namesOf s res
  | _ => True

/-- What a collector keeps: its ressources have maps, with the names of their samples. -/
def Inv (s : DocState) : Prop :=
  ∀ res r, s.state.ressources res = some r →
    (s.declared.lookup res).isSome = true ∧ Named (namesOf s res) r

theorem inv_step {e : DocEvent} (h : Inv s) (he : SetsDeclared s e) : Inv (s.step real own e) := by
  intro res r hr
  unfold namesOf
  cases @stepOf_step real own s e with
  | same _ hres hd =>
      rw [hres] at hr
      have hof : (s.step real own e).declaredOf res = s.declaredOf res := by
        rw [DocState.declaredOf, hd, DocState.declaredOf]
      rw [hd, hof]
      exact h res r hr
  | made _ made c new _ hmake hres hd =>
      rw [hres] at hr
      rw [declaredOf_insert hd]
      by_cases hkey : res = made
      · subst hkey
        rw [Function.update_self, Option.some_inj] at hr
        subst hr
        exact ⟨isSome_insert hd (.inl rfl), (named_make hmake _).1⟩
      · rw [Function.update_of_ne hkey] at hr
        rw [if_neg hkey]
        exact ⟨isSome_insert hd (.inr (h res r hr).1), (h res r hr).2⟩
  | called name c old new now hactive hold hcall hres hd =>
      rw [hres] at hr
      have hof : (s.step real own (.event (.call name c))).declaredOf res = s.declaredOf res := by
        rw [DocState.declaredOf, hd, DocState.declaredOf]
      rw [hd, hof]
      by_cases hkey : res = name
      · subst hkey
        rw [Function.update_self, Option.some_inj] at hr
        subst hr
        obtain ⟨hsome, hnamed⟩ := h res old hold
        exact ⟨hsome, call_named hnamed hcall (he hactive old hold)⟩
      · rw [Function.update_of_ne hkey] at hr
        exact h res r hr
  | declared name p old hold hres hd =>
      rw [hres] at hr
      rw [declaredOf_insert hd]
      obtain ⟨hsome, hnamed⟩ := h res r hr
      refine ⟨isSome_insert hd (.inr hsome), ?_⟩
      split
      · rename_i hkey
        subst hkey
        exact hnamed.mono (fun n hn => (mem_addProperty _ p n).mpr (.inl hn))
      · exact hnamed

/-- A collector that sets what it has declared keeps its samples documented. -/
theorem inv_exec {es : List DocEvent} (h : Inv s)
    (hes : Meets (DocState.step real own) SetsDeclared s es) :
    Inv (Run.exec (DocState.step real own) s es) :=
  Run.exec_of_meets (fun _ _ hs he => inv_step hs he) s es h hes

end Steps

end WatchedAgent.Proofs.Documented
