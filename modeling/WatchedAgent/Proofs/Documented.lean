import WatchedAgent.Proofs.DeclaredNames

/-!
# `WatchedAgent.Proofs.Documented`: samples have documented members

Every member of a sample is the time or a property of the definition that the path of its ressource
refers to.

Most collectors give a ressource its properties when they make it, and set no others (`Fits`, with
`bound` for what the ressources of a plugin declare). `ThermalCollector` declares a property before
it sets it. Three collectors have a condition (`DeclaresAll`): the counters of `/proc/vmstat` and
those of the agent were there when the collector was constructed, and a script declares what it
sets.

`members_documented`: in the document of any collectors, each at any moment of its run, all members
of all samples are documented.
-/

set_option autoImplicit false

namespace WatchedAgent.Proofs.Documented

open WatchedAgent.Lib
open WatchedAgent.Lib.Run (Meets)
open WatchedAgent.Model
open WatchedAgent.Model.Collecting

/-! ### Bounds -/

/-- Names for the ressources, by their names and kinds. -/
abbrev Lower := String → Kind → String → Prop

/-- The ressources declare these names at least. -/
def Bound (D : Lower) (s : DocState) : Prop :=
  s.state.mode ≠ .gone → ∀ res r, s.state.ressources res = some r →
    ∀ n, D res (kindOf r) n → n ∈ namesOf s res

/-- A new ressource declares the names of the bound, and a call sets no others. -/
def Fits (own : SeriesClass → List Property) (D : Lower) : Event → Prop
  | .assign res c => ∀ n, D res (kindOfClass c) n → n ∈ (own c).map Property.p_name
  | .addRessource res c => ∀ n, D res (kindOfClass c) n → n ∈ (own c).map Property.p_name
  | .call res c => ∀ k n, SetsName c k n → D res k n
  | _ => True

section Steps
variable {real : Option ℚ → Json} {own : SeriesClass → List Property} {D : Lower} {s : DocState}

/-- A collector that is gone stays gone. -/
theorem gone_step (h : s.state.mode = .gone) (e : DocEvent) :
    (s.step real own e).state.mode = .gone := by
  have hactive : s.state.active = false := by
    rw [State.active, h]
    rfl
  cases e with
  | addProperty res p => simp [DocState.step, hactive, h]
  | event e =>
      show (s.state.step real e).mode = .gone
      have hnot : ¬ (counted s.state).active = true :=
        fun hmode => Bool.false_ne_true (hactive.symm.trans hmode)
      cases e with
      | pass =>
          have hne : ¬ (counted s.state).mode = .thrown := by
            intro hthrown
            exact absurd (h.symm.trans hthrown) (by decide)
          exact (congrArg State.mode (if_neg hne)).trans h
      | _ => exact (congrArg State.mode (if_neg hnot)).trans h

theorem setsDeclared_of_fits {e : Event} (h : Bound D s) (he : Fits own D e) :
    SetsDeclared s (.event e) := by
  cases e with
  | call res c =>
      intro hactive r hr n hn
      refine h (fun hgone => ?_) res r hr n (he _ n hn)
      rw [State.active, hgone] at hactive
      exact absurd hactive (by decide)
  | _ => trivial

theorem bound_step {e : Event} (h : Bound D s) (he : Fits own D e) :
    Bound D (s.step real own (.event e)) := by
  intro hmode res r hr n hn
  have hbefore := h (fun hgone => hmode (gone_step hgone _))
  unfold namesOf
  cases @stepOf_step real own s (.event e) with
  | same _ hres hd =>
      rw [hres] at hr
      rw [DocState.declaredOf, hd]
      exact hbefore res r hr n hn
  | made _ made c new hmakes hmake hres hd =>
      rw [hres] at hr
      rw [declaredOf_insert hd]
      by_cases hkey : res = made
      · subst hkey
        rw [Function.update_self, Option.some_inj] at hr
        subst hr
        rw [if_pos rfl]
        refine (mem_foldl_addProperty _ _ n).mpr (.inr ?_)
        rw [(named_make hmake []).2] at hn
        rcases hmakes with rfl | ⟨rfl, -⟩
        · exact he n hn
        · exact he n hn
      · rw [Function.update_of_ne hkey] at hr
        rw [if_neg hkey]
        exact hbefore res r hr n hn
  | called name c old new now hactive hold hcall hres hd =>
      rw [hres] at hr
      rw [DocState.declaredOf, hd]
      by_cases hkey : res = name
      · subst hkey
        rw [Function.update_self, Option.some_inj] at hr
        subst hr
        exact hbefore res old hold n (kindOf_call hcall ▸ hn)
      · rw [Function.update_of_ne hkey] at hr
        exact hbefore res r hr n hn

/-- Events that fit the bound set only what is declared. -/
theorem meets_of_fits {es : List Event} (h : Bound D s) (hes : ∀ e ∈ es, Fits own D e) :
    Meets (DocState.step real own) SetsDeclared s (es.map .event) := by
  induction es generalizing s with
  | nil => trivial
  | cons e es ih =>
      have he := hes e List.mem_cons_self
      exact ⟨setsDeclared_of_fits h he,
        ih (bound_step h he) (fun e he => hes e (List.mem_cons_of_mem _ he))⟩

end Steps

/-! ### Collectors that declare with the ressource -/

section Events
variable {own : SeriesClass → List Property} {D : Lower} {res : String}

theorem fits_nextOf (res : String) : Fits own D (nextOf res) := fun _ _ h => absurd h id

theorem fits_setOf {name : String} (h : ∀ k, D res k name) (val : Json) :
    Fits own D (setOf res name val) := by
  rintro k n ⟨-, rfl⟩
  exact h k

theorem fits_setOrThrow (real : Option ℚ → Json) {name : String} (h : ∀ k, D res k name)
    (val : Option ℚ) : Fits own D (setOrThrow real res name val) := by
  cases val with
  | none => trivial
  | some q => exact fits_setOf h _

theorem fits_setAll (real : Option ℚ → Json) {properties : Published}
    (h : ∀ property ∈ properties, ∀ k, D res k property.1) :
    ∀ e ∈ setAll real res properties, Fits own D e := by
  intro e he
  obtain ⟨property, hproperty, rfl⟩ := List.mem_map.mp he
  exact fits_setOf (h property hproperty) _

theorem fits_setTicks {fields : List (String × Nat)} (h : ∀ f ∈ fields, D res .tick f.1)
    (raw : List String) : ∀ e ∈ setTicks res fields raw, Fits own D e := by
  intro e he
  obtain ⟨f, hf, rfl⟩ := List.mem_map.mp he
  rintro k n ⟨rfl, rfl⟩
  exact h f hf

theorem fits_ofLines {f : String → List Event} (h : ∀ line, ∀ e ∈ f line, Fits own D e)
    (file : Option String) : ∀ e ∈ ofLines file f, Fits own D e := by
  intro e he
  cases file with
  | none => exact absurd he List.not_mem_nil
  | some text =>
      obtain ⟨line, -, he⟩ := List.mem_flatMap.mp he
      exact h line e he

end Events

/-- A class that a ressource of the plugin can have. -/
def classOf : Plugin → String → Kind → SeriesClass
  | .memory _, res, _ => .plain (if res = "swap" then "swap_usage" else "memory_usage")
  | .cpu, res, _ => .plain (if res = "shed" then "service_cpu_shed" else "service_cpu_stat")
  | .cpuuse _, _, .cpuTicks => .cpuTicks
  | _, _, _ => .tick ""

/-- What the ressources of a plugin declare. -/
def bound (p : Plugin) : Lower :=
  fun res k n => n ∈ (p.ownProperties (classOf p res k)).map Property.p_name

section Plugins
variable (real : Option ℚ → Json)

/-- The constructors. -/
theorem fits_construct {p : Plugin} (hp : p.declaresAlone = true) :
    ∀ e ∈ p.construct real, Fits p.ownProperties (bound p) e := by
  intro e he
  cases p with
  | cpuload =>
      rw [List.mem_singleton.mp he]
      exact fun _ hn => hn
  | cpuuse stat =>
      refine fits_ofLines (fun line e he => ?_) stat e he
      unfold cpuUseDeclare at he
      split at he
      · rw [List.mem_singleton.mp he]
        exact fun _ hn => hn
      · split at he
        · rw [List.mem_singleton.mp he]
          exact fun _ hn => hn
        · split at he
          · rw [List.mem_singleton.mp he]
            exact fun _ hn => hn
          · exact absurd he List.not_mem_nil
  | memory meminfo =>
      cases meminfo with
      | none => exact absurd he List.not_mem_nil
      | some text =>
          simp only [Plugin.construct, List.mem_cons, List.not_mem_nil, or_false] at he
          rcases he with rfl | rfl
          · exact fun _ hn => hn
          · exact fun _ hn => hn
  | cpu =>
      simp only [Plugin.construct, List.mem_cons, List.not_mem_nil, or_false] at he
      rcases he with rfl | rfl
      · exact fun _ hn => hn
      · exact fun _ hn => hn
  | uptime =>
      rw [List.mem_singleton.mp he]
      exact fun _ hn => hn
  | io =>
      rw [List.mem_singleton.mp he]
      exact fun _ hn => hn
  | mem =>
      rw [List.mem_singleton.mp he]
      exact fun _ hn => hn
  | thermal =>
      rw [List.mem_singleton.mp he]
      exact fun _ hn => hn
  | vmstat => exact absurd hp (by decide)
  | self => exact absurd hp (by decide)
  | lua declare => exact absurd hp (by simp [Plugin.declaresAlone])
  | _ => exact absurd he List.not_mem_nil

theorem fits_cpuLoadLine (line : String) :
    ∀ e ∈ cpuLoadLine real line, Fits (Plugin.cpuload.ownProperties) (bound .cpuload) e := by
  intro e he
  have hname : ∀ n ∈ ["avg1", "avg5", "avg15"], ∀ k, bound .cpuload "avg" k n := fun n hn k => hn
  unfold cpuLoadLine at he
  simp only [List.mem_cons, List.not_mem_nil, or_false] at he
  rcases he with rfl | rfl | rfl | rfl
  · exact fits_nextOf "avg"
  · exact fits_setOrThrow real (hname "avg1" (by simp)) _
  · exact fits_setOrThrow real (hname "avg5" (by simp)) _
  · exact fits_setOrThrow real (hname "avg15" (by simp)) _

theorem fits_cpuSpeedEntry (entry : CpuFreqEntry) :
    ∀ e ∈ cpuSpeedEntry entry, Fits (Plugin.cpuspeed.ownProperties) (bound .cpuspeed) e := by
  intro e he
  unfold cpuSpeedEntry at he
  split at he
  · exact absurd he List.not_mem_nil
  · split at he
    · exact absurd he List.not_mem_nil
    · simp only [List.mem_cons, List.not_mem_nil, or_false] at he
      rcases he with rfl | rfl | rfl
      · exact fun _ hn => hn
      · exact fits_nextOf _
      · exact fits_setOf (fun _ => List.mem_singleton_self "MHz") _

theorem fits_setCount {stat : Option String} (res line : String) :
    Fits (Plugin.cpuuse stat).ownProperties (bound (.cpuuse stat)) (setCount res line) := by
  unfold setCount
  split
  · trivial
  · rintro k n ⟨rfl, rfl⟩
    exact List.mem_singleton_self "value"

theorem fits_cpuUseLine (stat : Option String) (line : String) :
    ∀ e ∈ cpuUseLine line, Fits (Plugin.cpuuse stat).ownProperties (bound (.cpuuse stat)) e := by
  intro e he
  unfold cpuUseLine at he
  split at he
  · simp only [List.mem_cons, List.not_mem_nil, or_false] at he
    rcases he with rfl | rfl
    · exact fits_nextOf _
    · rintro k n ⟨rfl, hid, hidle⟩
      show n ∈ ["user", "nice", "system", "iowait", "irq", "softirq"]
      unfold CpuTicks.ids at hid
      simp only [List.mem_cons, List.not_mem_nil, or_false] at hid ⊢
      tauto
  · split at he
    · simp only [List.mem_cons, List.not_mem_nil, or_false] at he
      rcases he with rfl | rfl
      · exact fits_nextOf _
      · exact fits_setCount "intr" line
    · split at he
      · simp only [List.mem_cons, List.not_mem_nil, or_false] at he
        rcases he with rfl | rfl
        · exact fits_nextOf _
        · exact fits_setCount "ctxt" line
      · exact absurd he List.not_mem_nil

theorem fits_diskStatsLine (line : String) :
    ∀ e ∈ diskStatsLine line, Fits (Plugin.diskstats.ownProperties) (bound .diskstats) e := by
  intro e he
  unfold diskStatsLine at he
  dsimp only at he
  split at he
  · exact absurd he List.not_mem_nil
  · simp only [List.cons_append, List.nil_append, List.mem_cons] at he
    rcases he with rfl | rfl | he
    · exact fun _ hn => hn
    · exact fits_nextOf _
    · refine fits_setTicks (fun f hf => ?_) _ e he
      exact (by decide : ∀ f ∈ diskStatsFields,
        f.1 ∈ (Plugin.diskstats.ownProperties (.tick "")).map Property.p_name) f hf

theorem fits_netDevLine (line : String) :
    ∀ e ∈ netDevLine line, Fits (Plugin.netdev.ownProperties) (bound .netdev) e := by
  intro e he
  unfold netDevLine at he
  split at he
  · exact absurd he List.not_mem_nil
  · simp only [List.cons_append, List.nil_append, List.mem_cons] at he
    rcases he with rfl | rfl | he
    · exact fun _ hn => hn
    · exact fits_nextOf _
    · refine fits_setTicks (fun f hf => ?_) _ e he
      exact (by decide : ∀ f ∈ netDevFields,
        f.1 ∈ (Plugin.netdev.ownProperties (.tick "")).map Property.p_name) f hf

theorem fits_diskUsageEntry (m : MntEnt) :
    ∀ e ∈ diskUsageEntry real m, Fits (Plugin.diskusage.ownProperties) (bound .diskusage) e := by
  intro e he
  unfold diskUsageEntry at he
  split at he
  · split at he
    · exact absurd he List.not_mem_nil
    · simp only [List.cons_append, List.nil_append, List.mem_cons] at he
      rcases he with rfl | rfl | he
      · exact fun _ hn => hn
      · exact fits_nextOf _
      · refine fits_setAll real (fun property hproperty k => ?_) e he
        exact List.mem_map_of_mem (f := Prod.fst) hproperty
  · exact absurd he List.not_mem_nil

theorem fits_memoryCollect (stat : Option String) (meminfo : String) :
    ∀ e ∈ memoryCollect real meminfo,
      Fits (Plugin.memory stat).ownProperties (bound (.memory stat)) e := by
  intro e he
  unfold memoryCollect at he
  cases hcollect : MemoryCollector.collect meminfo with
  | none =>
      rw [hcollect, List.mem_singleton] at he
      subst he
      trivial
  | some published =>
      obtain ⟨l, -, hpublished⟩ := Option.bind_eq_some_iff.mp hcollect
      rw [hcollect] at he
      -- The names do not depend on what the file says.
      split at hpublished
      · obtain rfl := Option.some.inj hpublished
        exact absurd he List.not_mem_nil
      · obtain rfl := Option.some.inj hpublished
        simp only [List.cons_append, List.mem_cons, List.mem_append] at he
        rcases he with rfl | he | rfl | he
        · exact fits_nextOf "swap"
        · refine fits_setAll real (fun property hproperty k => ?_) e he
          exact List.mem_map_of_mem (f := Prod.fst) hproperty
        · exact fits_nextOf "memory"
        · refine fits_setAll real (fun property hproperty k => ?_) e he
          exact List.mem_map_of_mem (f := Prod.fst) hproperty

theorem fits_uptimeLine (line : String) :
    ∀ e ∈ uptimeLine real line, Fits (Plugin.uptime.ownProperties) (bound .uptime) e := by
  intro e he
  unfold uptimeLine at he
  simp only [List.mem_cons, List.not_mem_nil, or_false] at he
  rcases he with rfl | rfl
  · exact fits_nextOf "uptime"
  · exact fits_setOrThrow real (fun _ => List.mem_singleton_self "uptime") _

theorem fits_ioCollect (pass : ProcPass) :
    ∀ e ∈ ioCollect pass, Fits (Plugin.io.ownProperties) (bound .io) e := by
  intro e he
  rcases List.mem_cons.mp he with rfl | he
  · exact fits_nextOf "io"
  · obtain ⟨reading, hreading, rfl⟩ := List.mem_map.mp he
    rintro k n ⟨rfl, rfl⟩
    obtain ⟨pid, -, hreading⟩ := List.mem_flatMap.mp hreading
    split at hreading
    · exact absurd hreading List.not_mem_nil
    · obtain ⟨line, -, hline⟩ := List.mem_filterMap.mp hreading
      obtain ⟨named, hnamed, rfl⟩ := Option.map_eq_some_iff.mp hline
      show named.1 ∈ ["rd", "wt"]
      -- A line has one of two names, or is left out.
      unfold ioReading at hnamed
      split at hnamed
      · exact absurd hnamed (Option.some_ne_none _).symm
      · dsimp only at hnamed
        split at hnamed
        · rw [← Option.some.inj hnamed]
          exact List.mem_cons_self
        · split at hnamed
          · rw [← Option.some.inj hnamed]
            exact List.mem_cons_of_mem _ List.mem_cons_self
          · exact absurd hnamed (Option.some_ne_none _).symm

theorem fits_memCollect (pass : ProcPass) :
    ∀ e ∈ memCollect pass, Fits (Plugin.mem.ownProperties) (bound .mem) e := by
  intro e he
  have hname : ∀ n ∈ ["total", "swap", "shared"], ∀ k, bound .mem "mem" k n := fun n hn k => hn
  unfold memCollect at he
  split at he
  · rw [List.mem_singleton.mp he]
    trivial
  · simp only [List.mem_cons, List.not_mem_nil, or_false] at he
    rcases he with rfl | rfl | rfl | rfl
    · exact fits_nextOf "mem"
    · exact fits_setOf (hname "total" (by simp)) _
    · exact fits_setOf (hname "swap" (by simp)) _
    · exact fits_setOf (hname "shared" (by simp)) _

theorem fits_cpuCollect (c : ServCpuCollector) (pass : ProcPass) :
    ∀ e ∈ cpuCollect real c pass, Fits (Plugin.cpu.ownProperties) (bound .cpu) e := by
  intro e he
  have hname : ∀ n ∈ ["exec_runtime", "process", "thread"], ∀ k, bound .cpu "shed" k n :=
    fun n hn k => hn
  unfold cpuCollect at he
  split at he
  · rw [List.mem_singleton.mp he]
    trivial
  · split at he
    · simp only [List.cons_append, List.nil_append, List.mem_cons] at he
      rcases he with rfl | rfl | rfl | rfl | rfl | he
      · exact fits_nextOf "shed"
      · exact fits_setOf (hname "exec_runtime" (by simp)) _
      · exact fits_setOf (hname "process" (by simp)) _
      · exact fits_setOf (hname "thread" (by simp)) _
      · exact fits_nextOf "stat"
      · refine fits_setAll real (fun property hproperty k => ?_) e he
        exact List.mem_map_of_mem (f := Prod.fst) hproperty
    · exact absurd he List.not_mem_nil

/-- The passes. `ThermalCollector` has its own lemma. -/
theorem fits_collect {p : Plugin} (hp : p.declaresAlone = true) (hthermal : p ≠ .thermal)
    (input : p.Input) : ∀ e ∈ p.collect real input, Fits p.ownProperties (bound p) e := by
  have hflatMap : ∀ {α : Type} {f : α → List Event} {l : List α},
      (∀ a, ∀ e ∈ f a, Fits p.ownProperties (bound p) e) →
        ∀ e ∈ l.flatMap f, Fits p.ownProperties (bound p) e := by
    intro α f l hf e he
    obtain ⟨a, -, he⟩ := List.mem_flatMap.mp he
    exact hf a e he
  cases p with
  | cpuload => exact fits_ofLines (fits_cpuLoadLine real) input
  | cpuspeed => exact hflatMap fits_cpuSpeedEntry
  | cpuuse stat => exact fits_ofLines (fits_cpuUseLine stat) input
  | diskstats => exact fits_ofLines fits_diskStatsLine input
  | diskusage => exact hflatMap (fits_diskUsageEntry real)
  | memory meminfo =>
      cases input with
      | none => exact fun e he => absurd he List.not_mem_nil
      | some text => exact fits_memoryCollect real meminfo text
  | netdev => exact fits_ofLines fits_netDevLine input
  | uptime => exact fits_ofLines (fits_uptimeLine real) input
  | io =>
      cases input with
      | none => exact fun e he => absurd he List.not_mem_nil
      | some pass => exact fits_ioCollect pass
  | mem =>
      cases input with
      | none => exact fun e he => absurd he List.not_mem_nil
      | some pass => exact fits_memCollect pass
  | cpu =>
      cases input with
      | none => exact fun e he => absurd he List.not_mem_nil
      | some read => exact fits_cpuCollect real read.1 read.2
  | thermal => exact absurd rfl hthermal
  | vmstat => exact absurd hp (by decide)
  | self => exact absurd hp (by decide)
  | lua declare => exact absurd hp (by simp [Plugin.declaresAlone])

end Plugins

/-! ### Collectors that declare in their constructor -/

/-- The event declares a property. -/
def Declares : DocEvent → Prop
  | .addProperty _ _ => True
  | .event _ => False

/-- The names that the events declare for a ressource. -/
def declaredBy (es : List DocEvent) : Lower :=
  fun res _ n => ∃ p, DocEvent.addProperty res p ∈ es ∧ p.p_name = n

/-- No pass has begun. -/
def Constructing (s : DocState) : Prop := s.state.mode = .building ∨ s.state.mode = .gone

section Constructors
variable {real : Option ℚ → Json} {own : SeriesClass → List Property} {D : Lower} {s : DocState}

theorem constructing_make {e : Event} {res : String} {c : SeriesClass}
    (he : e = .assign res c ∨ e = .addRessource res c) (h : Constructing s) :
    Constructing (s.step real own (.event e)) := by
  have hassign : ∀ (t : State), t.mode = .building →
      (t.assign res c).mode = .building ∨ (t.assign res c).mode = .gone := by
    intro t ht
    unfold State.assign
    split
    · exact .inr (if_pos ht)
    · exact .inl ht
  rcases h with hbuilding | hgone
  · have hactive : s.state.active = true := by
      rw [State.active, hbuilding]
      rfl
    show (s.state.step real e).mode = .building ∨ (s.state.step real e).mode = .gone
    rcases he with rfl | rfl
    · rw [step_of_active hactive (by simp)]
      exact hassign _ hbuilding
    · rw [step_of_active hactive (by simp)]
      unfold State.act
      dsimp only
      split
      · exact .inl hbuilding
      · exact hassign _ hbuilding
  · exact .inr (gone_step hgone _)

/-- A property that is declared before the first pass. -/
theorem bound_addProperty {res : String} {p : Property} (h : Bound D s) (hs : Constructing s) :
    Constructing (s.step real own (.addProperty res p)) ∧
      Bound (fun res' k n => D res' k n ∨ (res' = res ∧ n = p.p_name))
        (s.step real own (.addProperty res p)) := by
  rcases hs with hbuilding | hgone
  · have hactive : s.state.active = true := by
      rw [State.active, hbuilding]
      rfl
    cases hold : s.state.ressources res with
    | none =>
        have hmode : (s.step real own (.addProperty res p)).state.mode = .gone := by
          simp [DocState.step, hactive, hold]
        exact ⟨.inr hmode, fun hne => absurd hmode hne⟩
    | some old =>
        have hstate : (s.step real own (.addProperty res p)).state = s.state := by
          simp [DocState.step, hactive, hold]
        have hd : (s.step real own (.addProperty res p)).declared
            = OrderedMap.insert res (addProperty (s.declaredOf res) p) s.declared := by
          simp [DocState.step, hactive, hold]
        refine ⟨.inl (hstate ▸ hbuilding), fun hne res' r hr n hn => ?_⟩
        rw [hstate] at hne hr
        unfold namesOf
        rw [declaredOf_insert hd]
        by_cases hkey : res' = res
        · subst hkey
          rw [if_pos rfl, mem_addProperty]
          exact hn.imp (h hne _ r hr n) And.right
        · rw [if_neg hkey]
          exact h hne res' r hr n (hn.resolve_right fun hn => hkey hn.1)
  · have hmode := @gone_step real own s hgone (.addProperty res p)
    exact ⟨.inr hmode, fun hne => absurd hmode hne⟩

/-- All properties that are declared before the first pass. -/
theorem bound_declares {es : List DocEvent} (hes : ∀ e ∈ es, Declares e) (h : Bound D s)
    (hs : Constructing s) :
    Meets (DocState.step real own) SetsDeclared s es ∧
      Bound (fun res k n => D res k n ∨ declaredBy es res k n)
        (Run.exec (DocState.step real own) s es) := by
  induction es generalizing s D with
  | nil =>
      refine ⟨trivial, fun hne res r hr n hn => h hne res r hr n (hn.resolve_right ?_)⟩
      rintro ⟨p, hp, -⟩
      exact absurd hp List.not_mem_nil
  | cons e es ih =>
      cases e with
      | event e => exact absurd (hes _ List.mem_cons_self) id
      | addProperty res p =>
          obtain ⟨hnext, hbound⟩ := @bound_addProperty real own D s res p h hs
          obtain ⟨hmeets, hall⟩ := ih (fun e he => hes e (List.mem_cons_of_mem _ he)) hbound hnext
          refine ⟨⟨trivial, hmeets⟩, fun hne res' r hr n hn => hall hne res' r hr n ?_⟩
          rcases hn with hn | ⟨q, hq, rfl⟩
          · exact .inl (.inl hn)
          · rcases List.mem_cons.mp hq with heq | hq
            · obtain ⟨rfl, rfl⟩ := DocEvent.addProperty.inj heq
              exact .inl (.inr ⟨rfl, rfl⟩)
            · exact .inr ⟨q, hq, rfl⟩

/-- A collector that makes its ressources, declares their properties, and then sets no others. -/
theorem meets_of_declares {makes declares : List DocEvent} {es : List Event}
    (hs : Constructing s)
    (hmakes : ∀ e ∈ makes, ∃ res c, e = .event (.assign res c) ∨ e = .event (.addRessource res c))
    (hdeclares : ∀ e ∈ declares, Declares e) (hes : ∀ e ∈ es, Fits own (declaredBy declares) e) :
    Meets (DocState.step real own) SetsDeclared s (makes ++ declares ++ es.map .event) := by
  have hmeets : Meets (DocState.step real own) SetsDeclared s makes ∧
      Constructing (Run.exec (DocState.step real own) s makes) := by
    clear hdeclares hes
    induction makes generalizing s with
    | nil => exact ⟨trivial, hs⟩
    | cons e makes ih =>
        obtain ⟨res, c, he⟩ := hmakes e List.mem_cons_self
        have hnext : Constructing (s.step real own e) ∧ SetsDeclared s e := by
          rcases he with rfl | rfl
          · exact ⟨constructing_make (.inl rfl) hs, trivial⟩
          · exact ⟨constructing_make (.inr rfl) hs, trivial⟩
        obtain ⟨hrest, hlast⟩ := ih hnext.1 (fun e he => hmakes e (List.mem_cons_of_mem _ he))
        exact ⟨⟨hnext.2, hrest⟩, hlast⟩
  have hnone : Bound (fun _ _ _ => False) (Run.exec (DocState.step real own) s makes) :=
    fun _ _ _ _ _ hn => absurd hn id
  obtain ⟨hdeclare, hbound⟩ := @bound_declares real own _ _ _ hdeclares hnone hmeets.2
  refine (Run.meets_append _ _ _ _ _).mpr ⟨(Run.meets_append _ _ _ _ _).mpr ⟨hmeets.1, hdeclare⟩, ?_⟩
  rw [Run.exec_append]
  exact meets_of_fits (fun hne res r hr n hn => hbound hne res r hr n (.inr hn)) hes

end Constructors

/-! ### All plugins -/

/-- What is asked of a collector: its counters were there when it was constructed, and a script
declares what it sets. -/
def DeclaresAll (real : Option ℚ → Json) (s : DocState) : (p : DocPlugin) → List p.Input → Prop
  | .host _ _, _ => True
  | .vmstat file, passes => ∀ text, some text ∈ passes →
      ∀ line ∈ linesOf text, vmStatId line ∈ vmStatNames →
        ∃ first, file = some first ∧ ∃ line' ∈ linesOf first, vmStatId line' = vmStatId line
  | .self counters, passes => ∀ pass ∈ passes, pass.map Prod.fst ⊆ counters
  | .lua declare, passes => Meets (DocState.step real (DocPlugin.lua declare).own) SetsDeclared s
      ((DocPlugin.lua declare).events real passes)

/-- The events after the constructor. -/
def passesOf (real : Option ℚ → Json) (p : Plugin) (passes : List p.Input) : List Event :=
  .built :: passes.flatMap (fun f => .pass :: p.collect real f)

section Runs
variable (real : Option ℚ → Json)

theorem map_passesOf (p : Plugin) (passes : List p.Input) :
    (passesOf real p passes).map DocEvent.event = .event .built ::
      passes.flatMap (fun f => .event .pass :: (p.collect real f).map .event) := by
  rw [passesOf, List.map_cons, List.map_flatMap]
  rfl

/-- The events after the constructor fit, if those of the passes do. -/
theorem fits_passesOf {own : SeriesClass → List Property} {D : Lower} {p : Plugin}
    {passes : List p.Input} (h : ∀ f ∈ passes, ∀ e ∈ p.collect real f, Fits own D e) :
    ∀ e ∈ passesOf real p passes, Fits own D e := by
  intro e he
  rcases List.mem_cons.mp he with rfl | he
  · trivial
  · obtain ⟨f, hf, he⟩ := List.mem_flatMap.mp he
    rcases List.mem_cons.mp he with rfl | he
    · trivial
    · exact h f hf e he

theorem events_host {p : Plugin} (hp : p.declaresAlone = true) (hthermal : p ≠ .thermal)
    (passes : List p.Input) : (DocPlugin.host p hp).events real passes
      = (p.construct real ++ passesOf real p passes).map .event := by
  rw [List.map_append, map_passesOf]
  cases p with
  | thermal => exact absurd rfl hthermal
  | _ => rfl

/-! ### Temperatures -/

/-- The events set only what is declared, in any state. -/
def Everywhere (own : SeriesClass → List Property) (es : List DocEvent) : Prop :=
  ∀ s, Meets (DocState.step real own) SetsDeclared s es

section Lists
variable {real} {own : SeriesClass → List Property}

theorem everywhere_append {es fs : List DocEvent} (hes : Everywhere real own es)
    (hfs : Everywhere real own fs) : Everywhere real own (es ++ fs) :=
  fun s => (Run.meets_append _ _ s es fs).mpr ⟨hes s, hfs _⟩

theorem everywhere_flatMap {α : Type} {f : α → List DocEvent} {l : List α}
    (h : ∀ a ∈ l, Everywhere real own (f a)) : Everywhere real own (l.flatMap f) := by
  induction l with
  | nil => exact fun _ => trivial
  | cons a l ih =>
      rw [List.flatMap_cons]
      exact everywhere_append (h a List.mem_cons_self)
        (ih fun b hb => h b (List.mem_cons_of_mem _ hb))

/-- A property that is declared right before it is set. -/
theorem setsDeclared_addProperty (s : DocState) (res : String) (p : Property) (val : Json) :
    SetsDeclared (s.step real own (.addProperty res p)) (.event (setOf res p.p_name val)) := by
  intro hafter r _ n hn
  obtain ⟨-, rfl⟩ := hn
  unfold namesOf
  cases hactive : s.state.active with
  | false =>
      have hstep : s.step real own (.addProperty res p) = s := by simp [DocState.step, hactive]
      rw [hstep, hactive] at hafter
      exact absurd hafter Bool.false_ne_true
  | true =>
      cases hold : s.state.ressources res with
      | none =>
          have hmode : (s.step real own (.addProperty res p)).state.mode = .gone := by
            simp [DocState.step, hactive, hold]
          rw [State.active, hmode] at hafter
          exact absurd hafter (by decide)
      | some old =>
          have hd : (s.step real own (.addProperty res p)).declared
              = OrderedMap.insert res (addProperty (s.declaredOf res) p) s.declared := by
            simp [DocState.step, hactive, hold]
          rw [declaredOf_insert hd, if_pos rfl, mem_addProperty]
          exact .inr rfl

end Lists

theorem everywhere_thermal (passes : List (Plugin.Input .thermal)) :
    Everywhere real Plugin.thermal.ownProperties
      ((DocPlugin.host .thermal rfl).events real passes) := by
  have hpass : ∀ dir, Everywhere real Plugin.thermal.ownProperties
      ((Plugin.thermal.collect real dir).flatMap thermalDeclare) := by
    refine fun dir => everywhere_flatMap fun e he => ?_
    cases dir with
    | none => exact absurd he List.not_mem_nil
    | some entries =>
        rcases List.mem_cons.mp he with rfl | he
        · exact fun s => ⟨fun _ _ _ _ hn => absurd hn id, trivial⟩
        · obtain ⟨entry, -, he⟩ := List.mem_flatMap.mp he
          unfold thermalEntry at he
          split at he
          · exact absurd he List.not_mem_nil
          · rw [List.mem_singleton.mp he]
            exact fun s => ⟨trivial, setsDeclared_addProperty s "all" _ _, trivial⟩
  refine everywhere_append (fun s => ⟨trivial, trivial⟩) ?_
  have hrest : Everywhere real Plugin.thermal.ownProperties
      (passes.flatMap (fun f => .event .pass :: (DocPlugin.host .thermal rfl).collect real f)) :=
    everywhere_flatMap fun dir _ s => ⟨trivial, hpass dir _⟩
  exact fun s => ⟨trivial, hrest _⟩

/-! ### Counters -/

theorem declares_vmStatDeclare (line : String) : ∀ e ∈ vmStatDeclare line, Declares e := by
  unfold vmStatDeclare
  intro e he
  split at he
  · rw [List.mem_singleton.mp he]
    trivial
  · exact absurd he List.not_mem_nil

/-- A counter that is shown was declared, if it was there. -/
theorem declaredBy_vmstat {first line : String} (hline : line ∈ linesOf first)
    (hname : vmStatId line ∈ vmStatNames) (k : Kind) :
    declaredBy ((linesOf first).flatMap vmStatDeclare) "stat" k (vmStatId line) := by
  have hdescs : ∀ n ∈ vmStatNames, (vmStatDescs.lookup n).isSome = true := by decide
  obtain ⟨desc, hdesc⟩ := Option.isSome_iff_exists.mp (hdescs _ hname)
  refine ⟨⟨vmStatId line, desc, "number"⟩, List.mem_flatMap.mpr ⟨line, hline, ?_⟩, rfl⟩
  rw [vmStatDeclare, hdesc]
  exact List.mem_singleton_self _

theorem fits_vmstat {file : Option String} {declares : List DocEvent}
    (hdeclares : ∀ text, file = some text → ∀ line ∈ linesOf text, vmStatId line ∈ vmStatNames →
      ∀ k, declaredBy declares "stat" k (vmStatId line)) (own : SeriesClass → List Property) :
    ∀ e ∈ Plugin.vmstat.collect real file, Fits own (declaredBy declares) e := by
  intro e he
  rcases List.mem_cons.mp he with rfl | he
  · exact fits_nextOf "stat"
  · cases file with
    | none => exact absurd he List.not_mem_nil
    | some text =>
        obtain ⟨line, hline, he⟩ := List.mem_flatMap.mp he
        unfold vmStatLine at he
        dsimp only at he
        split at he
        · rename_i hname
          rw [List.mem_singleton.mp he]
          rintro k n ⟨-, rfl⟩
          exact hdeclares text rfl line hline hname k
        · exact absurd he List.not_mem_nil

theorem declares_selfDeclare (counter : String) : ∀ e ∈ selfDeclare counter, Declares e := by
  unfold selfDeclare
  intro e he
  simp only [List.mem_cons, List.not_mem_nil, or_false] at he
  rcases he with rfl | rfl | rfl <;> trivial

theorem fits_selfCounter {counters : List String} {c : String × Nat × Nat} (hc : c.1 ∈ counters)
    (own : SeriesClass → List Property) :
    ∀ e ∈ selfCounter c, Fits own (declaredBy (counters.flatMap selfDeclare)) e := by
  have hdeclare : ∀ res p, DocEvent.addProperty res p ∈ selfDeclare c.1 → ∀ k,
      declaredBy (counters.flatMap selfDeclare) res k p.p_name :=
    fun res p hp k => ⟨p, List.mem_flatMap.mpr ⟨c.1, hc, hp⟩, rfl⟩
  intro e he
  unfold selfCounter at he
  unfold selfDeclare at hdeclare
  simp only [List.mem_cons, List.not_mem_nil, or_false] at he
  rcases he with rfl | rfl | rfl
  · exact fits_setOf (hdeclare "values" _ List.mem_cons_self) _
  · rintro k n ⟨-, rfl⟩
    exact hdeclare "changes" _ (List.mem_cons_of_mem _ List.mem_cons_self) k
  · rintro k n ⟨-, rfl⟩
    exact hdeclare "changes" _
      (List.mem_cons_of_mem _ (List.mem_cons_of_mem _ List.mem_cons_self)) k

theorem meets_vmstat {s : DocState} {file : Option String} {passes : List (Plugin.Input .vmstat)}
    (hs : Constructing s) (h : DeclaresAll real s (.vmstat file) passes) :
    Meets (DocState.step real (DocPlugin.vmstat file).own) SetsDeclared s
      ((DocPlugin.vmstat file).events real passes) := by
  have hevents : (DocPlugin.vmstat file).events real passes
      = (Plugin.vmstat.construct real).map .event
        ++ (file.elim [] (fun text => (linesOf text).flatMap vmStatDeclare))
        ++ (passesOf real .vmstat passes).map .event := by
    rw [map_passesOf]
    exact List.append_assoc _ _ _ ▸ rfl
  rw [hevents]
  refine meets_of_declares hs (fun e he => ?_) (fun e he => ?_)
    (fits_passesOf real fun f hf => fits_vmstat real (fun text htext line hline hname k => ?_) _)
  · exact ⟨"stat", .tick "memory_stats", .inl (List.mem_singleton.mp he)⟩
  · cases file with
    | none => exact absurd he List.not_mem_nil
    | some first =>
        obtain ⟨line, -, he⟩ := List.mem_flatMap.mp he
        exact declares_vmStatDeclare line e he
  · obtain ⟨first, rfl, line', hline', hid⟩ := h text (htext ▸ hf) line hline hname
    rw [← hid] at hname ⊢
    exact declaredBy_vmstat hline' hname k

theorem meets_self {s : DocState} {counters : List String} {passes : List (Plugin.Input .self)}
    (hs : Constructing s) (h : DeclaresAll real s (.self counters) passes) :
    Meets (DocState.step real (DocPlugin.self counters).own) SetsDeclared s
      ((DocPlugin.self counters).events real passes) := by
  have hevents : (DocPlugin.self counters).events real passes
      = (Plugin.self.construct real).map .event ++ counters.flatMap selfDeclare
        ++ (passesOf real .self passes).map .event := by
    rw [map_passesOf]
    rfl
  rw [hevents]
  refine meets_of_declares hs (fun e he => ?_) (fun e he => ?_)
    (fits_passesOf real fun pass hpass e he => ?_)
  · simp only [Plugin.construct, List.map_cons, List.map_nil, List.mem_cons, List.not_mem_nil,
      or_false] at he
    rcases he with rfl | rfl
    · exact ⟨_, _, .inl rfl⟩
    · exact ⟨_, _, .inr rfl⟩
  · obtain ⟨counter, -, he⟩ := List.mem_flatMap.mp he
    exact declares_selfDeclare counter e he
  · rcases List.mem_cons.mp he with rfl | he
    · exact fits_nextOf "values"
    · rcases List.mem_cons.mp he with rfl | he
      · exact fits_nextOf "changes"
      · obtain ⟨c, hc, he⟩ := List.mem_flatMap.mp he
        exact fits_selfCounter (h pass hpass (List.mem_map_of_mem hc)) _ e he

/-! ### Runs of any plugin -/

/-- Each collector sets only what it has declared. -/
theorem meets_events {s : DocState} {p : DocPlugin} {passes : List p.Input} (hs : Constructing s)
    (hnone : ∀ res, s.state.ressources res = none) (h : DeclaresAll real s p passes) :
    Meets (DocState.step real p.own) SetsDeclared s (p.events real passes) := by
  cases p with
  | host p hp =>
      by_cases hthermal : p = .thermal
      · subst hthermal
        exact everywhere_thermal real passes s
      · rw [events_host real hp hthermal passes]
        refine meets_of_fits (D := bound p) (fun _ res r hr => ?_) (fun e he => ?_)
        · exact absurd ((hnone res).symm.trans hr) (Option.some_ne_none r).symm
        · rcases List.mem_append.mp he with he | he
          · exact fits_construct real hp e he
          · exact fits_passesOf real (fun f _ => fits_collect real hp hthermal f) e he
  | vmstat file => exact meets_vmstat real hs h
  | self counters => exact meets_self real hs h
  | lua declare => exact h

end Runs

/-! ### Without the declarations -/

/-- The event of `Model.HostCollectors`. -/
def erase : DocEvent → Option Event
  | .event e => some e
  | .addProperty _ _ => none

theorem filterMap_erase_event (es : List Event) : (es.map DocEvent.event).filterMap erase = es := by
  rw [List.filterMap_map]
  exact List.filterMap_some

theorem filterMap_erase_declares {es : List DocEvent} (h : ∀ e ∈ es, Declares e) :
    es.filterMap erase = [] := by
  refine List.filterMap_eq_nil_iff.mpr fun e he => ?_
  cases e with
  | event e => exact absurd (h _ he) id
  | addProperty res p => rfl

theorem filterMap_erase_thermal (es : List Event) :
    (es.flatMap thermalDeclare).filterMap erase = es := by
  induction es with
  | nil => rfl
  | cons e es ih =>
      rw [List.flatMap_cons, List.filterMap_append, ih]
      cases e with
      | call res c => cases c <;> rfl
      | _ => rfl

theorem filterMap_erase_lua (real : Option ℚ → Json) (calls : List LuaDocCall) :
    (calls.map (DocPlugin.luaEvent real)).filterMap erase
      = (DocPlugin.callsOf calls).map (LuaCall.event real) := by
  induction calls with
  | nil => rfl
  | cons c calls ih =>
      cases c with
      | call c => exact congrArg (c.event real :: ·) ih
      | addProperty res p => exact ih

theorem erase_construct (real : Option ℚ → Json) (p : DocPlugin) :
    (p.construct real).filterMap erase = p.plugin.construct real := by
  cases p with
  | host p hp => exact filterMap_erase_event _
  | vmstat file =>
      refine (List.filterMap_append ..).trans ?_
      rw [filterMap_erase_event, filterMap_erase_declares, List.append_nil]
      · rfl
      · intro e he
        cases file with
        | none => exact absurd he List.not_mem_nil
        | some text =>
            obtain ⟨line, -, he⟩ := List.mem_flatMap.mp he
            exact declares_vmStatDeclare line e he
  | self counters =>
      refine (List.filterMap_append ..).trans ?_
      rw [filterMap_erase_event, filterMap_erase_declares, List.append_nil]
      · rfl
      · intro e he
        obtain ⟨counter, -, he⟩ := List.mem_flatMap.mp he
        exact declares_selfDeclare counter e he
  | lua declare => exact filterMap_erase_lua real declare

theorem erase_collect (real : Option ℚ → Json) (p : DocPlugin) (f : p.Input) :
    (p.collect real f).filterMap erase = p.plugin.collect real (p.input f) := by
  cases p with
  | host p hp =>
      cases p with
      | thermal => exact filterMap_erase_thermal _
      | _ => exact filterMap_erase_event _
  | vmstat file => exact filterMap_erase_event _
  | self counters => exact filterMap_erase_event _
  | lua declare => exact filterMap_erase_lua real f

/-- Without its declarations a collector is the one of `Model.HostCollectors`. -/
theorem erase_events (real : Option ℚ → Json) (p : DocPlugin) (passes : List p.Input) :
    (p.events real passes).filterMap erase = p.plugin.events real (passes.map p.input) := by
  unfold DocPlugin.events Plugin.events
  rw [List.filterMap_append, erase_construct]
  refine congrArg (fun es => p.plugin.construct real ++ .built :: es) ?_
  rw [List.filterMap_flatMap, List.flatMap_map]
  refine congrArg (fun g => passes.flatMap g) (funext fun f => ?_)
  exact congrArg (.pass :: ·) (erase_collect real p f)

/-! ### The document -/

/-- The document has a definition of the type, with the time and these names. -/
def Describes (names : List String) (typeName : String) (defs : Definitions) : Prop :=
  ∃ d, defs.lookup typeName = some d ∧
    ∀ n, n = "timestamp" ∨ n ∈ names → (d.properties.lookup n).isSome = true

theorem isSome_getDefinition {declared : Declared} {d : Definition} {n : String}
    (h : n = "timestamp" ∨ n ∈ declared.map Prod.fst ∨ (d.properties.lookup n).isSome = true) :
    ((getDefinition declared d).properties.lookup n).isSome = true := by
  have hfold : ∀ (l : Declared) (properties : List (String × PropertyDoc)),
      n ∈ l.map Prod.fst ∨ (properties.lookup n).isSome = true →
        ((l.foldl writeProperty properties).lookup n).isSome = true := by
    intro l
    induction l with
    | nil => exact fun properties h => h.resolve_left List.not_mem_nil
    | cons i l ih =>
        intro properties h
        refine ih _ ?_
        by_cases hkey : n = i.1
        · refine .inr ?_
          rw [writeProperty, OrderedMap.lookup_insert, if_pos hkey]
          rfl
        · rw [writeProperty, OrderedMap.lookup_insert, if_neg hkey]
          exact h.imp_left fun hmem => (List.mem_cons.mp hmem).resolve_left hkey
  refine hfold _ _ ?_
  rw [OrderedMap.lookup_insert]
  rcases h with rfl | hmem | hsome
  · exact .inr rfl
  · exact .inl hmem
  · refine .inr ?_
    split
    · rfl
    · exact hsome

section Documents
variable {names : List String} {typeName : String} {haveService : Bool} {s : DocState}
  {defs : Definitions}

/-- The turn of the loop of `Collector::getDefinitions`. -/
def turn (haveService : Bool) (s : DocState) (defs : Definitions) (i : String × Declared) :
    Definitions :=
  match s.state.ressources i.1 with
  | some r => OrderedMap.insert r.typeName (getDefinition i.2 (defs.at r.typeName haveService)) defs
  | none => defs

/-- Another ressource of the type adds its properties. -/
theorem describes_turn (i : String × Declared) (h : Describes names typeName defs) :
    Describes names typeName (turn haveService s defs i) := by
  obtain ⟨d, hd, hnames⟩ := h
  unfold turn
  split
  · rename_i r hr
    by_cases hkey : typeName = r.typeName
    · subst hkey
      refine ⟨_, (OrderedMap.lookup_insert _ _ _ _).trans (if_pos rfl), fun n hn => ?_⟩
      refine isSome_getDefinition (.inr (.inr ?_))
      rw [Definitions.at, hd]
      exact hnames n hn
    · exact ⟨d, (OrderedMap.lookup_insert _ _ _ _).trans ((if_neg hkey).trans hd), hnames⟩
  · exact ⟨d, hd, hnames⟩

theorem describes_turn_self {i : String × Declared} {r : Series}
    (hr : s.state.ressources i.1 = some r) :
    Describes (i.2.map Prod.fst) r.typeName (turn haveService s defs i) := by
  unfold turn
  rw [hr]
  refine ⟨_, (OrderedMap.lookup_insert _ _ _ _).trans (if_pos rfl), fun n hn => ?_⟩
  exact isSome_getDefinition (hn.imp_right .inl)

theorem describes_getDefinitions (h : Describes names typeName defs) :
    Describes names typeName (getDefinitions haveService s defs) :=
  @Run.exec_keeps _ _ (turn haveService s) (Describes names typeName) defs s.declared
    (fun _ i _ hdefs => describes_turn i hdefs) h

/-- The ressources of a collector are described. -/
theorem describes_own {res : String} {r : Series} (hr : s.state.ressources res = some r)
    (hsome : (s.declared.lookup res).isSome = true) :
    Describes (namesOf s res) r.typeName (getDefinitions haveService s defs) := by
  obtain ⟨declared, hdeclared⟩ := Option.isSome_iff_exists.mp hsome
  have hof : namesOf s res = declared.map Prod.fst := by
    rw [namesOf, DocState.declaredOf, hdeclared]
    rfl
  have hmem : (res, declared) ∈ s.declared := by
    obtain ⟨pre, post, heq, -⟩ := List.lookup_eq_some_iff.mp hdeclared
    rw [heq]
    exact List.mem_append_right pre List.mem_cons_self
  rw [hof]
  exact @Run.exec_of_mem _ _ (turn haveService s) _ defs s.declared
    (fun _ i _ hdefs => describes_turn i hdefs) _ hmem (fun _ => describes_turn_self hr)

theorem describes_allDefinitions {collectors : List (Bool × DocState)} {c : Bool × DocState}
    (hc : c ∈ collectors) {res : String} {r : Series} (hr : c.2.state.ressources res = some r)
    (hsome : (c.2.declared.lookup res).isSome = true) :
    Describes (namesOf c.2 res) r.typeName (allDefinitions collectors defs) :=
  @Run.exec_of_mem _ _ (fun defs c => getDefinitions c.1 c.2 defs) _ defs collectors
    (fun _ _ _ hdefs => describes_getDefinitions hdefs) _ hc (fun _ => describes_own hr hsome)

end Documents

/-- A collector at a moment of its run: the passes that it makes, and how many of all its steps are
behind it. -/
structure Running where
  haveService : Bool
  plugin : DocPlugin
  history : Nat
  pollFrequency : Nat
  clock : Nat → Int
  passes : List plugin.Input
  taken : Nat

namespace Running

/-- Before the constructor. -/
def start (c : Running) : DocState :=
  { state := { history := c.history, pollFrequency := c.pollFrequency, clock := c.clock } }

/-- The collector after the steps that it has taken. -/
def now (real : Option ℚ → Json) (c : Running) : DocState :=
  Run.exec (DocState.step real c.plugin.own) c.start ((c.plugin.events real c.passes).take c.taken)

theorem inv_now {real : Option ℚ → Json} {c : Running}
    (h : DeclaresAll real c.start c.plugin c.passes) : Inv (c.now real) := by
  have hmeets := meets_events real (s := c.start) (.inl rfl) (fun _ => rfl) h
  rw [← List.take_append_drop c.taken (c.plugin.events real c.passes)] at hmeets
  exact inv_exec (fun res r hr => absurd hr (Option.some_ne_none r).symm)
    ((Run.meets_append _ _ _ _ _).mp hmeets).1

end Running

/-- In the document of any collectors, each at any moment of its run, every member of every sample
is a property of the definition of its type. -/
theorem members_documented (real : Option ℚ → Json) (collectors : List Running)
    (h : ∀ c ∈ collectors, DeclaresAll real c.start c.plugin c.passes) (defs : Definitions) :
    ∀ c ∈ collectors, ∀ res r, (c.now real).state.ressources res = some r →
      ∃ d, (allDefinitions (collectors.map fun c => (c.haveService, c.now real)) defs).lookup
          r.typeName = some d ∧
        ∀ sample ∈ members r, ∀ n ∈ sample, (d.properties.lookup n).isSome = true := by
  intro c hc res r hr
  obtain ⟨hsome, hnamed⟩ := Running.inv_now (h c hc) res r hr
  obtain ⟨d, hd, hnames⟩ := describes_allDefinitions
    (List.mem_map_of_mem (f := fun c => (c.haveService, c.now real)) hc) hr hsome
  exact ⟨d, hd, fun sample hsample n hn => hnames n (hnamed.members sample hsample n hn)⟩

/-- The load of the machine after a pass. -/
def load : Running where
  haveService := false
  plugin := .host .cpuload rfl
  history := 300
  pollFrequency := 5
  clock := fun _ => 0
  passes := [some "0.50 0.40 0.30 1/200 4242"]
  taken := 7

/-- A counter of the agent after two passes. -/
def counters : Running where
  haveService := true
  plugin := .self ["Ressource"]
  history := 150
  pollFrequency := 10
  clock := fun _ => 0
  passes := [[("Ressource", 3, 1)], [("Ressource", 4, 1)]]
  taken := 20

theorem members_documented_counters :
    ((counters.now fun _ => .null).state.ressources "values").map members
        = some [["timestamp", "Ressource"], ["timestamp", "Ressource"]] ∧
      ∀ c ∈ [load, counters], ∀ res r, (c.now fun _ => .null).state.ressources res = some r →
        ∃ d, (allDefinitions ([load, counters].map fun c => (c.haveService, c.now fun _ => .null))
            []).lookup r.typeName = some d ∧
          ∀ sample ∈ members r, ∀ n ∈ sample, (d.properties.lookup n).isSome = true := by
  refine ⟨by decide +kernel, members_documented (fun _ => .null) [load, counters] ?_ []⟩
  intro c hc
  rcases List.mem_cons.mp hc with rfl | hc
  · trivial
  · rw [List.mem_singleton.mp hc]
    show ∀ pass ∈ [[("Ressource", 3, 1)], [("Ressource", 4, 1)]],
      pass.map Prod.fst ⊆ ["Ressource"]
    decide

end WatchedAgent.Proofs.Documented
