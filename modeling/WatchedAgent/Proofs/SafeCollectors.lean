import WatchedAgent.Proofs.SafeCalls

/-!
# `WatchedAgent.Proofs.SafeCollectors`: when the collectors are safe

Each plugin works in order: a pass asks for a sample of a ressource before it sets the properties
of it. `Anywhere` says this of the turn of a loop, whatever the pass has done before, and
`inOrder_events` of the constructor and all passes. Two plugins need something of what they are
given (`WorksInOrder`): the files of the processes do not name a counter twice with a greater
value, and a script is in order itself.

`safe_iff`: all calls of a plugin are defined if and only if the configuration settles them.
`safe_of_pos`: a configuration without a zero settles all calls. `not_safe_without_history` is a
history of 0.
-/

set_option autoImplicit false

namespace WatchedAgent.Proofs

open WatchedAgent.Lib
open WatchedAgent.Lib.Run (Meets)
open WatchedAgent.Model

namespace SafeCalls

open WatchedAgent.Model.Collecting

/-! ### Orders -/

/-- The events are in order, whatever the pass has done before. -/
def Anywhere (es : List Event) : Prop := ∀ t, RunsInOrder t es

theorem anywhere_nil : Anywhere [] := fun _ => trivial

theorem anywhere_append {es fs : List Event} (hes : Anywhere es) (hfs : Anywhere fs) :
    Anywhere (es ++ fs) :=
  fun t => (Run.meets_append _ _ t es fs).mpr ⟨hes t, hfs _⟩

theorem anywhere_flatMap {α : Type} {f : α → List Event} (h : ∀ a, Anywhere (f a))
    (l : List α) : Anywhere (l.flatMap f) := by
  induction l with
  | nil => exact anywhere_nil
  | cons a l ih =>
      rw [List.flatMap_cons]
      exact anywhere_append (h a) ih

theorem anywhere_ofLines {f : String → List Event} (h : ∀ line, Anywhere (f line))
    (file : Option String) : Anywhere (ofLines file f) := by
  cases file with
  | none => exact anywhere_nil
  | some text => exact anywhere_flatMap h (linesOf text)

/-- A property of one of the ressources is set, or there is an exception. -/
def Sets (names : List String) : Event → Prop
  | .throw => True
  | .call _ .nextValue => False
  | .call _ (.setPidValue _ _ _) => False
  | .call res _ => res ∈ names
  | _ => False

/-- Properties are set in order where their ressources were asked for samples. -/
theorem runsInOrder_sets {names : List String} {t : Trace} (hnames : names ⊆ t.sampled)
    {es : List Event} (hes : ∀ e ∈ es, Sets names e) : RunsInOrder t es := by
  induction es with
  | nil => trivial
  | cons e es ih =>
      have hrest := ih (fun e he => hes e (List.mem_cons_of_mem _ he))
      have he := hes e List.mem_cons_self
      cases e with
      | call res c =>
          cases c with
          | nextValue => exact absurd he id
          | setPidValue name pid value => exact absurd he id
          | _ => exact ⟨hnames he, hrest⟩
      | throw => exact ⟨trivial, hrest⟩
      | _ => exact absurd he id

/-- A sample is asked for, and then its properties are set. -/
theorem anywhere_sample {res : String} {es : List Event} (hes : ∀ e ∈ es, Sets [res] e) :
    Anywhere (nextOf res :: es) := by
  intro t
  refine ⟨trivial, runsInOrder_sets (fun name hname => ?_) hes⟩
  rw [List.mem_singleton.mp hname]
  exact List.mem_cons_self

/-- The same after the ressource was added. -/
theorem anywhere_added {res : String} {es : List Event} (c : SeriesClass)
    (hes : ∀ e ∈ es, Sets [res] e) : Anywhere (.addRessource res c :: nextOf res :: es) :=
  fun t => ⟨trivial, anywhere_sample hes t⟩

theorem sets_setOf (res name : String) (val : Json) : Sets [res] (setOf res name val) :=
  List.mem_singleton_self res

theorem sets_setOrThrow (real : Option ℚ → Json) (res name : String) (val : Option ℚ) :
    Sets [res] (setOrThrow real res name val) := by
  cases val with
  | none => trivial
  | some q => exact sets_setOf res name _

theorem sets_setAll (real : Option ℚ → Json) (res : String) (properties : Published) :
    ∀ e ∈ setAll real res properties, Sets [res] e := by
  intro e he
  obtain ⟨property, -, rfl⟩ := List.mem_map.mp he
  exact sets_setOf res _ _

theorem sets_setTicks (res : String) (fields : List (String × Nat)) (raw : List String) :
    ∀ e ∈ setTicks res fields raw, Sets [res] e := by
  intro e he
  obtain ⟨field, -, rfl⟩ := List.mem_map.mp he
  exact List.mem_singleton_self res

/-- Ressources are constructed only. -/
def Declares : Event → Prop
  | .assign _ _ => True
  | .addRessource _ _ => True
  | _ => False

theorem runsInOrder_declares {es : List Event} (hes : ∀ e ∈ es, Declares e) :
    RunsInOrder {} es := by
  induction es with
  | nil => trivial
  | cons e es ih =>
      have hrest := ih (fun e he => hes e (List.mem_cons_of_mem _ he))
      cases e with
      | assign res c => exact ⟨List.not_mem_nil, hrest⟩
      | addRessource res c => exact ⟨trivial, hrest⟩
      | _ => exact absurd (hes _ List.mem_cons_self) id

/-! ### The plugins -/

/-- No process is read a second time with a greater value. -/
def NoGrowth (readings : List ((String × Nat) × Nat)) : Prop :=
  readings.Pairwise (fun a b => a.1 = b.1 → b.2 ≤ a.2)

/-- Readings of processes are in order after a `nextValue`, if none of them grows. -/
theorem runsInOrder_readings {res : String} {readings : List ((String × Nat) × Nat)} {t : Trace}
    (hres : res ∈ t.sampled) (hgrowth : NoGrowth readings)
    (hbefore : ∀ e ∈ readings, ∀ old, t.readings (res, e.1.1, e.1.2) = some old → e.2 ≤ old) :
    RunsInOrder t (readings.map (fun e => .call res (.setPidValue e.1.1 e.1.2 e.2))) := by
  induction readings generalizing t with
  | nil => trivial
  | cons e readings ih =>
      obtain ⟨hfirst, hrest⟩ := List.pairwise_cons.mp hgrowth
      refine ⟨⟨hres, hbefore e List.mem_cons_self⟩, ih hres hrest (fun a ha old hold => ?_)⟩
      unfold Trace.next at hold
      dsimp only at hold
      by_cases hkey : (res, a.1.1, a.1.2) = (res, e.1.1, e.1.2)
      · rw [hkey, Function.update_self, Option.some_inj] at hold
        obtain ⟨-, hkey⟩ := Prod.mk.inj hkey
        have hle := hfirst a ha (Prod.ext (Prod.mk.inj hkey).1.symm (Prod.mk.inj hkey).2.symm)
        omega
      · rw [Function.update_of_ne hkey] at hold
        exact hbefore a (List.mem_cons_of_mem _ ha) old hold

/-- What is asked of the input of a plugin: in a pass no counter of a process is read twice with
a greater value, and a script works in order itself. -/
def WorksInOrder (real : Option ℚ → Json) : (p : Plugin) → List p.Input → Prop
  | .io, passes => ∀ pass, some pass ∈ passes → NoGrowth (ioReadings pass)
  | .lua declare, passes => RunsInOrder {} (declare.map (LuaCall.event real)) ∧
      ∀ calls ∈ passes, RunsInOrder {} (calls.map (LuaCall.event real))
  | _, _ => True

section Collectors
variable (real : Option ℚ → Json)

theorem anywhere_cpuLoadLine (line : String) : Anywhere (cpuLoadLine real line) := by
  refine anywhere_sample (fun e he => ?_)
  simp only [List.mem_cons, List.not_mem_nil, or_false] at he
  rcases he with rfl | rfl | rfl
  · exact sets_setOrThrow real "avg" "avg1" _
  · exact sets_setOrThrow real "avg" "avg5" _
  · exact sets_setOrThrow real "avg" "avg15" _

theorem anywhere_uptimeLine (line : String) : Anywhere (uptimeLine real line) := by
  refine anywhere_sample (fun e he => ?_)
  rw [List.mem_singleton.mp he]
  exact sets_setOrThrow real "uptime" "uptime" _

theorem anywhere_cpuSpeedEntry (entry : CpuFreqEntry) : Anywhere (cpuSpeedEntry entry) := by
  unfold cpuSpeedEntry
  split
  · exact anywhere_nil
  · split
    · exact anywhere_nil
    · refine anywhere_added _ (fun e he => ?_)
      rw [List.mem_singleton.mp he]
      exact sets_setOf _ _ _

theorem sets_setCount (res line : String) : Sets [res] (setCount res line) := by
  unfold setCount
  split
  · trivial
  · exact List.mem_singleton_self res

theorem anywhere_cpuUseLine (line : String) : Anywhere (cpuUseLine line) := by
  unfold cpuUseLine
  split
  · refine anywhere_sample (fun e he => ?_)
    rw [List.mem_singleton.mp he]
    exact List.mem_singleton_self (cpuId line)
  · split
    · refine anywhere_sample (fun e he => ?_)
      rw [List.mem_singleton.mp he]
      exact sets_setCount "intr" line
    · split
      · refine anywhere_sample (fun e he => ?_)
        rw [List.mem_singleton.mp he]
        exact sets_setCount "ctxt" line
      · exact anywhere_nil

theorem anywhere_diskStatsLine (line : String) : Anywhere (diskStatsLine line) := by
  unfold diskStatsLine
  dsimp only
  split
  · exact anywhere_nil
  · exact anywhere_added _ (sets_setTicks _ diskStatsFields _)

theorem anywhere_diskUsageEntry (m : MntEnt) : Anywhere (diskUsageEntry real m) := by
  unfold diskUsageEntry
  split
  · split
    · exact anywhere_nil
    · exact anywhere_added _ (sets_setAll real _ _)
  · exact anywhere_nil

/-- A pass that ends in an exception at once. -/
theorem anywhere_throw : Anywhere [.throw] := fun _ => ⟨trivial, trivial⟩

theorem anywhere_memoryCollect (meminfo : String) : Anywhere (memoryCollect real meminfo) := by
  unfold memoryCollect
  split
  · exact anywhere_throw
  · exact anywhere_nil
  · exact anywhere_append (anywhere_sample (sets_setAll real "swap" _))
      (anywhere_sample (sets_setAll real "memory" _))

theorem anywhere_netDevLine (line : String) : Anywhere (netDevLine line) := by
  unfold netDevLine
  split
  · exact anywhere_nil
  · exact anywhere_added _ (sets_setTicks _ netDevFields _)

theorem sets_vmStatLine (line : String) : ∀ e ∈ vmStatLine line, Sets ["stat"] e := by
  unfold vmStatLine
  dsimp only
  intro e he
  split at he
  · rw [List.mem_singleton.mp he]
    exact List.mem_singleton_self "stat"
  · exact absurd he List.not_mem_nil

theorem sets_thermalEntry (entry : ThermalEntry) :
    ∀ e ∈ thermalEntry real entry, Sets ["all"] e := by
  unfold thermalEntry
  intro e he
  split at he
  · exact absurd he List.not_mem_nil
  · rw [List.mem_singleton.mp he]
    exact sets_setOf "all" _ _

theorem sets_selfCounter (c : String × Nat × Nat) :
    ∀ e ∈ selfCounter c, Sets ["changes", "values"] e := by
  intro e he
  unfold selfCounter at he
  simp only [List.mem_cons, List.not_mem_nil, or_false] at he
  rcases he with rfl | rfl | rfl
  · exact List.mem_cons_of_mem _ List.mem_cons_self
  · exact List.mem_cons_self
  · exact List.mem_cons_self

theorem anywhere_memCollect (pass : ProcPass) : Anywhere (memCollect pass) := by
  unfold memCollect
  split
  · exact anywhere_throw
  · refine anywhere_sample (fun e he => ?_)
    simp only [List.mem_cons, List.not_mem_nil, or_false] at he
    rcases he with rfl | rfl | rfl
    · exact sets_setOf "mem" "total" _
    · exact sets_setOf "mem" "swap" _
    · exact sets_setOf "mem" "shared" _

theorem anywhere_cpuCollect (c : ServCpuCollector) (pass : ProcPass) :
    Anywhere (cpuCollect real c pass) := by
  unfold cpuCollect
  split
  · exact anywhere_throw
  · split
    · show Anywhere ([nextOf "shed", _, _, _] ++ nextOf "stat" :: _)
      refine anywhere_append ?_ (anywhere_sample (sets_setAll real "stat" _))
      refine anywhere_sample (fun e he => ?_)
      simp only [List.mem_cons, List.not_mem_nil, or_false] at he
      rcases he with rfl | rfl | rfl
      · exact sets_setOf "shed" "exec_runtime" _
      · exact sets_setOf "shed" "process" _
      · exact sets_setOf "shed" "thread" _
    · exact anywhere_nil

/-- The samples of a pass are asked for before the lines of a file. -/
theorem anywhere_lines {res : String} {f : String → List Event}
    (hf : ∀ line, ∀ e ∈ f line, Sets [res] e) (file : Option String) :
    Anywhere (nextOf res :: ofLines file f) := by
  refine anywhere_sample (fun e he => ?_)
  cases file with
  | none => exact absurd he List.not_mem_nil
  | some text =>
      obtain ⟨line, -, he⟩ := List.mem_flatMap.mp he
      exact hf line e he

theorem declares_cpuUseDeclare (line : String) : ∀ e ∈ cpuUseDeclare line, Declares e := by
  unfold cpuUseDeclare
  intro e he
  split at he
  · rw [List.mem_singleton.mp he]
    trivial
  · split at he
    · rw [List.mem_singleton.mp he]
      trivial
    · split at he
      · rw [List.mem_singleton.mp he]
        trivial
      · exact absurd he List.not_mem_nil

end Collectors

/-- The constructor of each plugin is in order. -/
theorem runsInOrder_construct {real : Option ℚ → Json} {p : Plugin} {passes : List p.Input}
    (h : WorksInOrder real p passes) : RunsInOrder {} (p.construct real) := by
  cases p with
  | cpuuse stat =>
      refine runsInOrder_declares (fun e he => ?_)
      cases stat with
      | none => exact absurd he List.not_mem_nil
      | some text =>
          obtain ⟨line, -, he⟩ := List.mem_flatMap.mp he
          exact declares_cpuUseDeclare line e he
  | memory meminfo =>
      cases meminfo with
      | none => trivial
      | some text => exact ⟨trivial, trivial, trivial⟩
  | lua declare => exact h.1
  | cpuload => exact ⟨trivial, trivial⟩
  | thermal => exact ⟨trivial, trivial⟩
  | uptime => exact ⟨trivial, trivial⟩
  | mem => exact ⟨trivial, trivial⟩
  | vmstat => exact ⟨List.not_mem_nil, trivial⟩
  | io => exact ⟨List.not_mem_nil, trivial⟩
  | self => exact ⟨List.not_mem_nil, trivial, trivial⟩
  | cpu => exact ⟨trivial, trivial, trivial⟩
  | _ => trivial

/-- A pass of each plugin is in order. -/
theorem runsInOrder_collect {real : Option ℚ → Json} {p : Plugin} {passes : List p.Input}
    (h : WorksInOrder real p passes) {input : p.Input} (hinput : input ∈ passes) :
    RunsInOrder {} (p.collect real input) := by
  cases p with
  | cpuload => exact anywhere_ofLines (anywhere_cpuLoadLine real) input {}
  | cpuspeed => exact anywhere_flatMap anywhere_cpuSpeedEntry (Option.getD input []) {}
  | cpuuse stat => exact anywhere_ofLines anywhere_cpuUseLine input {}
  | diskstats => exact anywhere_ofLines anywhere_diskStatsLine input {}
  | diskusage => exact anywhere_flatMap (anywhere_diskUsageEntry real) (Option.getD input []) {}
  | memory meminfo =>
      cases input with
      | none => trivial
      | some text => exact anywhere_memoryCollect real text {}
  | netdev => exact anywhere_ofLines anywhere_netDevLine input {}
  | thermal =>
      cases input with
      | none => trivial
      | some entries =>
          refine anywhere_sample (fun e he => ?_) {}
          obtain ⟨entry, -, he⟩ := List.mem_flatMap.mp he
          exact sets_thermalEntry real entry e he
  | uptime => exact anywhere_ofLines (anywhere_uptimeLine real) input {}
  | vmstat => exact anywhere_lines sets_vmStatLine input {}
  | self =>
      refine ⟨trivial, trivial, runsInOrder_sets (List.Subset.refl _) (fun e he => ?_)⟩
      obtain ⟨c, -, he⟩ := List.mem_flatMap.mp he
      exact sets_selfCounter c e he
  | io =>
      cases input with
      | none => trivial
      | some pass =>
          exact ⟨trivial, runsInOrder_readings List.mem_cons_self (h pass hinput)
            (fun e _ old hold => absurd hold (Option.some_ne_none old).symm)⟩
  | mem =>
      cases input with
      | none => trivial
      | some pass => exact anywhere_memCollect pass {}
  | cpu =>
      cases input with
      | none => trivial
      | some p => exact anywhere_cpuCollect real p.1 p.2 {}
  | lua declare => exact h.2 input hinput

/-- Each plugin works in order. -/
theorem inOrder_events {real : Option ℚ → Json} {p : Plugin} {passes : List p.Input}
    (h : WorksInOrder real p passes) : RunsInOrder {} (p.events real passes) := by
  unfold Plugin.events
  refine (Run.meets_append _ _ _ _ _).mpr ⟨runsInOrder_construct h, trivial, ?_⟩
  -- Each pass begins with an empty trace.
  have hpasses : ∀ (t : Trace) (inputs : List p.Input), inputs ⊆ passes →
      RunsInOrder t (inputs.flatMap (fun f => .pass :: p.collect real f)) := by
    intro t inputs
    induction inputs generalizing t with
    | nil => exact fun _ => trivial
    | cons input inputs ih =>
        intro hsub
        obtain ⟨hinput, hrest⟩ := List.cons_subset.mp hsub
        rw [List.flatMap_cons]
        exact (Run.meets_append _ _ _ _ _).mpr
          ⟨⟨trivial, runsInOrder_collect h hinput⟩, ih _ hrest⟩
  exact hpasses _ passes (List.Subset.refl _)

/-- Before the constructor there are no ressources. -/
theorem inv_start (history pollFrequency : Nat) (clock : Nat → Int) :
    Inv {} { history, pollFrequency, clock } :=
  ⟨fun _ r hr => absurd hr (Option.some_ne_none r).symm,
    fun _ _ hres => absurd hres List.not_mem_nil⟩

/-- For each plugin, any configuration and any passes, every call is defined if and only if the
configuration settles every call. -/
theorem safe_iff (real : Option ℚ → Json) (p : Plugin) (history pollFrequency : Nat)
    (clock : Nat → Int) (passes : List p.Input) (h : WorksInOrder real p passes) :
    Meets (State.step real) State.Defined { history, pollFrequency, clock } (p.events real passes)
      ↔ Meets (State.step real) Settled { history, pollFrequency, clock }
          (p.events real passes) :=
  meets_defined_iff real (inv_start history pollFrequency clock) (inOrder_events h)

/-- Without a zero the configuration settles every call. -/
theorem settles_of_pos {history pollFrequency : Nat} (hhistory : 0 < history)
    (hfrequency : 0 < pollFrequency) (r : Series) (c : SeriesCall) :
    Settles history pollFrequency r c := by
  cases r with
  | plain r =>
      cases c with
      | setProperty name val => exact hhistory
      | _ => trivial
  | cpuTicks r ticks =>
      cases c with
      | setProperty name val => exact hhistory
      | setRaw raw => exact hhistory
      | _ => trivial
  | tick r =>
      cases c with
      | setProperty name val => exact hhistory
      | setTickValue name value => exact ⟨hhistory, fun _ => hfrequency⟩
      | _ => trivial
  | pid r =>
      cases c with
      | nextValue => exact fun _ => hhistory
      | _ => trivial

/-- The configuration does not change. -/
theorem config_step (real : Option ℚ → Json) (s : State) (e : Event) :
    (s.step real e).history = s.history ∧ (s.step real e).pollFrequency = s.pollFrequency := by
  have hassign : ∀ (s : State) (res : String) (c : SeriesClass),
      (s.assign res c).history = s.history ∧ (s.assign res c).pollFrequency = s.pollFrequency := by
    intro s res c
    unfold State.assign
    split <;> exact ⟨rfl, rfl⟩
  have hact : ∀ (s : State) (e : Event), (s.act real e).history = s.history ∧
      (s.act real e).pollFrequency = s.pollFrequency := by
    intro s e
    cases e with
    | assign res c => exact hassign s res c
    | addRessource res c =>
        unfold State.act
        dsimp only
        split
        · exact ⟨rfl, rfl⟩
        · exact hassign s res c
    | call res c =>
        unfold State.act State.call
        dsimp only
        split <;> exact ⟨rfl, rfl⟩
    | _ => exact ⟨rfl, rfl⟩
  unfold State.step
  cases e with
  | pass =>
      dsimp only
      split <;> exact ⟨rfl, rfl⟩
  | _ =>
      dsimp only
      split
      · exact hact _ _
      · exact ⟨rfl, rfl⟩

/-- Every call of a run is settled where the configuration has no zero. -/
theorem meets_settled_of_pos (real : Option ℚ → Json) {s : State} (hhistory : 0 < s.history)
    (hfrequency : 0 < s.pollFrequency) (es : List Event) :
    Meets (State.step real) Settled s es := by
  induction es generalizing s with
  | nil => trivial
  | cons e es ih =>
      obtain ⟨hh, hf⟩ := config_step real s e
      refine ⟨?_, ih (hh ▸ hhistory) (hf ▸ hfrequency)⟩
      cases e with
      | call res c => exact fun _ r _ => settles_of_pos hhistory hfrequency r c
      | _ => trivial

/-- A collector with a history and a frequency other than zero is safe. -/
theorem safe_of_pos (real : Option ℚ → Json) (p : Plugin) {history pollFrequency : Nat}
    (hhistory : 0 < history) (hfrequency : 0 < pollFrequency) (clock : Nat → Int)
    (passes : List p.Input) (h : WorksInOrder real p passes) :
    Meets (State.step real) State.Defined { history, pollFrequency, clock }
      (p.events real passes) :=
  (meets_defined_iff real (inv_start history pollFrequency clock) (inOrder_events h)).mpr
    (meets_settled_of_pos real hhistory hfrequency _)

/-- An entry of the processor 0. -/
def policy : CpuFreqEntry := ⟨"policy0", true, some "800000"⟩

/-- Where no sample is kept, the speed of a processor is set in none. -/
theorem not_safe_without_history :
    ¬ Meets (State.step fun _ => .null) State.Defined
      { history := 0, pollFrequency := 5, clock := fun _ => 0 }
      (Plugin.events (fun _ => .null) .cpuspeed [some [policy]]) := by
  intro h
  have hset := h.2.2.2.2.1 rfl _ rfl
  exact hset rfl

/-- A pass over two processes that have read and written. -/
def countedProcesses : ProcPass where
  pids := [10, 11]
  files := fun _ => { io := some (fileOf ["rchar: 7", "read_bytes: 4096", "write_bytes: 512"]) }

/-- A script that sets the seconds of the clock. -/
def clockScript : List LuaCall := [.nextValue "clock", .setProperty "clock" "seconds" 42]

/-- The calls of three collectors in a history of 300 samples: a collector of the system, one
that reads the counters of two processes twice, and a script. -/
theorem safe_iff_three :
    (Meets (State.step fun _ => .null) State.Defined
        { history := 300, pollFrequency := 5, clock := fun _ => 0 }
        (Plugin.events (fun _ => .null) .cpuspeed [some [policy]])
      ↔ Meets (State.step fun _ => .null) Settled
        { history := 300, pollFrequency := 5, clock := fun _ => 0 }
        (Plugin.events (fun _ => .null) .cpuspeed [some [policy]])) ∧
    (Meets (State.step fun _ => .null) State.Defined
        { history := 300, pollFrequency := 5, clock := fun _ => 0 }
        (Plugin.events (fun _ => .null) .io [some countedProcesses, some countedProcesses])
      ↔ Meets (State.step fun _ => .null) Settled
        { history := 300, pollFrequency := 5, clock := fun _ => 0 }
        (Plugin.events (fun _ => .null) .io [some countedProcesses, some countedProcesses])) ∧
    (Meets (State.step fun _ => .null) State.Defined
        { history := 300, pollFrequency := 5, clock := fun _ => 0 }
        (Plugin.events (fun _ => .null) (.lua [.addRessource "clock" "time"]) [clockScript])
      ↔ Meets (State.step fun _ => .null) Settled
        { history := 300, pollFrequency := 5, clock := fun _ => 0 }
        (Plugin.events (fun _ => .null) (.lua [.addRessource "clock" "time"]) [clockScript])) := by
  have hio : WorksInOrder (fun _ => .null) .io [some countedProcesses, some countedProcesses] := by
    intro pass hpass
    have hpass' : some pass = some countedProcesses :=
      (List.mem_cons.mp hpass).elim id List.mem_singleton.mp
    rw [Option.some.inj hpass']
    unfold NoGrowth
    decide
  have hscript : WorksInOrder (fun _ => .null) (.lua [.addRessource "clock" "time"])
      [clockScript] := by
    refine ⟨⟨trivial, trivial⟩, fun calls hcalls => ?_⟩
    rw [List.mem_singleton.mp hcalls]
    exact ⟨trivial, List.mem_cons_self, trivial⟩
  exact ⟨safe_iff (fun _ => .null) .cpuspeed 300 5 (fun _ => 0) [some [policy]] trivial,
    safe_iff (fun _ => .null) .io 300 5 (fun _ => 0)
      [some countedProcesses, some countedProcesses] hio,
    safe_iff (fun _ => .null) (.lua [.addRessource "clock" "time"]) 300 5 (fun _ => 0)
      [clockScript] hscript⟩

end SafeCalls

end WatchedAgent.Proofs
