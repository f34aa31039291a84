import WatchedAgent.Lib.Counters
import WatchedAgent.Model.Shares
import WatchedAgent.Proofs.CpuElapsed
import WatchedAgent.Proofs.CpuPercentages
import WatchedAgent.Proofs.ManagerOps
import WatchedAgent.Proofs.MemoryPercentages

/-!
# `WatchedAgent.Proofs.Denominators`: quotients that are numbers

Five functions divide by something they have read: the collectors of memory, file systems and
processor time, the processor time of a service, and the bar of a service on the index page.
None of them looks whether it is zero, but for the first pass of `ServCpuCollector`.

* `numbers_iff`: for each of the five, the inputs on which every published value is a number.
* `not_numbers_without_swap`: a host without swap.
-/

set_option autoImplicit false

namespace WatchedAgent.Proofs.Denominators

open WatchedAgent.Lib
open WatchedAgent.Lib.Counters
open WatchedAgent.Lib.Text
open WatchedAgent.Model
open WatchedAgent.Proofs.MemoryPercentages (lastNumber collect_lines)
open WatchedAgent.Proofs.CpuElapsed (frame totals_of_frame foldlM_sched_frame)

/-- Every published value is a number. -/
def Numbers (p : Published) : Prop := ∀ e ∈ p, e.2.isSome = true

/-- A quotient of two counters is a number. -/
theorem isSome_quotient_nat (a : ℚ) (n : Nat) : (quotient a n).isSome = true ↔ n ≠ 0 := by
  rw [isSome_quotient, Nat.cast_ne_zero]

/-- Quotients with one denominator. -/
theorem numbers_map_iff {keys : List String} (hkeys : keys ≠ []) (a : String → ℚ) (n : Nat) :
    Numbers (keys.map fun id => (id, quotient (a id) n)) ↔ n ≠ 0 := by
  obtain ⟨key, hkey⟩ := List.exists_mem_of_ne_nil keys hkeys
  unfold Numbers
  rw [List.forall_mem_map]
  constructor
  · exact fun hall => (isSome_quotient_nat (a key) n).mp (hall key hkey)
  · exact fun hn id _ => (isSome_quotient_nat (a id) n).mpr hn

/-! ### Memory -/

section Memory
open MemoryCollector

/-- What is published of the memory are numbers. -/
def MemoryNumbers (meminfo : String) : Prop :=
  ∀ swap memory, collect meminfo = some (some (swap, memory)) → Numbers swap ∧ Numbers memory

/-- The shares of the memory are numbers if there is swap and there is memory. -/
theorem memoryNumbers_iff (meminfo : String) : MemoryNumbers meminfo ↔ (linesOf meminfo ≠ [] →
    lastNumber meminfo "SwapTotal" ≠ 0 ∧ lastNumber meminfo "MemTotal" ≠ 0) := by
  obtain ⟨vars, hcollect, hvars⟩ := collect_lines meminfo
  have hswap : Numbers (swap vars) ↔ lastNumber meminfo "SwapTotal" ≠ 0 := by
    rw [← hvars "SwapTotal" (by decide), ← isSome_quotient_nat (mulUInt32 100 (vars "SwapFree"))]
    simp [Numbers, swap]
  have hmemory : Numbers (memory vars) ↔ lastNumber meminfo "MemTotal" ≠ 0 := by
    rw [← hvars "MemTotal" (by decide), ← isSome_quotient_nat (mulUInt32 100 (vars "MemFree"))]
    simp [Numbers, memory]
  rw [← hswap, ← hmemory]
  unfold MemoryNumbers
  rw [hcollect]
  cases linesOf meminfo with
  | nil => simp
  | cons line lines => simp

end Memory

/-! ### File systems -/

/-- The shares of a file system are numbers if it has blocks and inodes. -/
theorem numbers_disk_iff (s : Statvfs) :
    Numbers (diskUsageSetStats s) ↔ s.blocks ≠ 0 ∧ s.files ≠ 0 := by
  have hzero : ∀ n : UInt64, n.toNat ≠ 0 ↔ n ≠ 0 := fun n => by
    rw [ne_eq, ne_eq, ← UInt64.toNat_inj]
    rfl
  have hmega : ∀ a : ℚ, (quotient a (1024 * 1024)).isSome = true := fun a => by
    rw [isSome_quotient]
    norm_num
  rw [← hzero, ← hzero, ← isSome_quotient_nat (mulUInt64 s.bavail.toNat 100),
    ← isSome_quotient_nat (mulUInt64 s.favail.toNat 100)]
  unfold Numbers diskUsageSetStats
  simp only [List.forall_mem_cons, hmega, true_and]
  simp

/-! ### Ticks of a processor -/

section Ticks
open CpuTicks

/-- The sum of the counters on a line, as the collector takes them. -/
def ticksOf (raw : List String) : Nat :=
  (CpuTicks.ids.map (readLive raw fun _ => 0)).sum % 0x100000000

/-- A collector after some readings of its line. -/
def ticksRun (raws : List (List String)) : CpuTicks := raws.foldl (fun r raw => (r.setRaw raw).1) {}

/-- What is published of the processor are numbers, in every reading. -/
def TickNumbers (raws : List (List String)) : Prop :=
  ∀ before raw after, raws = before ++ raw :: after → Numbers ((ticksRun before).setRaw raw).2

/-- All counters are set. -/
theorem readLive_eq (raw : List String) (live : String → Nat) :
    ∀ id ∈ CpuTicks.ids, readLive raw live id = readLive raw (fun _ => 0) id := by
  intro id hid
  rw [CpuPercentages.readLive_word raw live id hid, CpuPercentages.readLive_word raw _ id hid]

/-- The differences add up to the difference of the sums. -/
theorem sum_differences (keys : List String) (a b : String → Nat)
    (hb : ∀ id ∈ keys, b id < 0x100000000) :
    ((keys.map fun id => subUInt32 (a id) (b id)).sum + (keys.map b).sum) % 0x100000000
      = (keys.map a).sum % 0x100000000 := by
  induction keys with
  | nil => rfl
  | cons key keys ih =>
      have hrest := ih fun id hid => hb id (List.mem_cons_of_mem key hid)
      have hkey := hb key List.mem_cons_self
      rw [List.map_cons, List.map_cons, List.map_cons, List.sum_cons, List.sum_cons, List.sum_cons]
      unfold subUInt32 at hrest ⊢
      omega

theorem readLive_lt (raw : List String) :
    ∀ id ∈ CpuTicks.ids, readLive raw (fun _ => 0) id < 0x100000000 := by
  intro id hid
  rw [CpuPercentages.readLive_word raw _ id hid]
  unfold CpuPercentages.word ServCpuCollector.wordValue toUInt32
  split <;> omega

/-- The collector holds the counters of the last line, or zeros. -/
def HoldsTicks (r : CpuTicks) (last : Option (List String)) : Prop :=
  ∀ id ∈ CpuTicks.ids, r.old id = (last.map fun raw => readLive raw (fun _ => 0) id).getD 0

theorem holdsTicks_run (raws : List (List String)) : HoldsTicks (ticksRun raws) raws.getLast? := by
  induction raws using List.reverseRecOn with
  | nil => exact fun _ _ => rfl
  | append_singleton raws raw _ =>
      intro id hid
      unfold ticksRun
      rw [List.foldl_append, List.getLast?_concat, Option.map_some, Option.getD_some,
        ← readLive_eq raw (ticksRun raws).live id hid]
      show ((ticksRun raws).setRaw raw).1.old id = _
      unfold setRaw
      rw [CpuPercentages.setRaw_words]
      exact if_pos hid

/-- The shares are numbers if the sum of the counters has changed. -/
theorem numbers_setRaw_iff {r : CpuTicks} {last : Option (List String)} (h : HoldsTicks r last)
    (raw : List String) : Numbers (r.setRaw raw).2 ↔ ticksOf raw ≠ (last.map ticksOf).getD 0 := by
  let sum := (CpuTicks.ids.map fun id => subUInt32 (readLive raw r.live id) (r.old id)).sum % 0x100000000
  have hpublished : Numbers (r.setRaw raw).2 ↔ sum ≠ 0 := by
    unfold setRaw
    rw [CpuPercentages.setRaw_words]
    exact numbers_map_iff (by decide) _ _
  -- The sums are compared modulo `2 ^ 32`, where differences that wrap cancel out.
  have hold : ∀ id ∈ CpuTicks.ids, r.old id < 0x100000000 := by
    intro id hid
    rw [h id hid]
    cases last with
    | none => exact Nat.succ_pos _
    | some raw => exact readLive_lt raw id hid
  have hlast : (CpuTicks.ids.map r.old).sum % 0x100000000 = (last.map ticksOf).getD 0 := by
    rw [List.map_congr_left h]
    cases last with
    | none => rfl
    | some raw => rfl
  have hsum := sum_differences CpuTicks.ids (readLive raw r.live) r.old hold
  rw [List.map_congr_left (readLive_eq raw r.live)] at hsum
  rw [hpublished, ← hlast]
  unfold ticksOf sum
  omega

theorem tickNumbers_iff (raws : List (List String)) : TickNumbers raws ↔
    ∀ before raw after, raws = before ++ raw :: after →
      ticksOf raw ≠ (before.getLast?.map ticksOf).getD 0 :=
  forall_congr' fun before => forall_congr' fun raw => forall_congr' fun _ =>
    imp_congr_right fun _ => numbers_setRaw_iff (holdsTicks_run before) raw

end Ticks

/-! ### Processor time of a service -/

section Service
open ServCpuCollector

/-- The ticks on a line of `/proc/stat`, if it is that of all processors. -/
def lineTicks (line : String) : Nat :=
  match tokens line with
  | [] => 0
  | word :: words => if word = "cpu" then (words.map fun w => toUInt32 (atoi w)).sum else 0

/-- The ticks in `/proc/stat`, as the collector takes them. -/
def cpuTicks (cpuStat : String) : Nat := ((linesOf cpuStat).map lineTicks).sum % 0x100000000

/-- A pass that ends without an exception: the runtimes in the `sched` files can be read. -/
def Accepted (pass : ProcPass) : Prop :=
  ∀ pid ∈ pass.pids, ∀ sched, (pass.files pid).sched = some sched → ∀ line ∈ linesOf sched,
    (tokens line)[0]? = some "se.sum_exec_runtime" → (stod ((tokens line)[2]?.getD "")).isSome = true

/-- A new collector after some passes, where none of them throws. -/
def servRun (passes : List ProcPass) : Option ServCpuCollector :=
  passes.foldlM (fun c pass => (c.collect pass).map Prod.fst) {}

/-- What is published of the processor time are numbers, in every pass before which none has
thrown. -/
def ServNumbers (passes : List ProcPass) : Prop :=
  ∀ before pass after, passes = before ++ pass :: after → ∀ c p, servRun before = some c →
    c.published pass = some p → Numbers p

theorem totalTime_readCpuLine {l : CpuLocals} (h : l.totalTime < 0x100000000) (line : String) :
    (readCpuLine l line).totalTime = (l.totalTime + lineTicks line) % 0x100000000 := by
  unfold readCpuLine lineTicks
  cases tokens line with
  | nil => exact (Nat.mod_eq_of_lt h).symm
  | cons word words =>
      dsimp only
      by_cases hword : word = "cpu"
      · rw [if_pos hword, if_pos hword]
        exact foldl_mod (fun _ _ => rfl) h
      · rw [if_neg hword, if_neg hword, Nat.add_zero, Nat.mod_eq_of_lt h]
        split <;> rfl

theorem totalTime_foldl (cpuStat : String) :
    ((linesOf cpuStat).foldl readCpuLine {}).totalTime = cpuTicks cpuStat := by
  have hlines : ∀ (lines : List String) (l : CpuLocals), l.totalTime < 0x100000000 →
      (lines.foldl readCpuLine l).totalTime
        = (l.totalTime + (lines.map lineTicks).sum) % 0x100000000 := by
    intro lines
    induction lines with
    | nil => exact fun l hl => (Nat.mod_eq_of_lt hl).symm
    | cons line lines ih =>
        intro l hl
        have htotal := totalTime_readCpuLine hl line
        rw [List.foldl_cons, ih _ (by rw [htotal]; exact Nat.mod_lt _ (by decide)), htotal,
          List.map_cons, List.sum_cons]
        omega
  have hstart := hlines (linesOf cpuStat) {} (by decide)
  rw [Nat.zero_add] at hstart
  exact hstart

/-- The turn of a process of an accepted pass leaves both totals alone. -/
theorem readProcess_frame {pass : ProcPass} (h : Accepted pass) {pid : Nat}
    (hpid : pid ∈ pass.pids) (c : ServCpuCollector × CpuLocals) :
    ∃ c', readProcess pass.files c pid = some c' ∧ frame c' = frame c := by
  unfold readProcess
  cases hsched : (pass.files pid).sched with
  | none => exact ⟨c, rfl, rfl⟩
  | some sched =>
      obtain ⟨c₁, hlines, hframe, -⟩ := foldlM_sched_frame (c := c) pid (h pid hpid sched hsched)
      dsimp only
      rw [hlines, Option.bind_eq_bind, Option.bind_some]
      -- Whatever the process shows in `stat`, it is in the tables and the other variables.
      split
      · exact ⟨_, rfl, hframe⟩
      · split
        · exact ⟨_, rfl, hframe⟩
        · split
          · exact ⟨_, rfl, hframe⟩
          · exact ⟨_, rfl, hframe⟩

/-- What an accepted pass has read, with the total of the pass before. -/
theorem readFiles_totals {pass : ProcPass} (h : Accepted pass) (c : ServCpuCollector) :
    ∃ r, c.readFiles pass = some r ∧ r.1.prevTotalTime = c.prevTotalTime ∧
      r.2.totalTime = cpuTicks pass.cpuStat := by
  let l := (linesOf pass.cpuStat).foldl readCpuLine {}
  let start := if l.cpuCount = 0 then { l with cpuCount := 1 } else l
  have hstart : start.totalTime = cpuTicks pass.cpuStat := by
    rw [← totalTime_foldl]
    unfold start
    split <;> rfl
  obtain ⟨r, hread, hframe⟩ := Fallible.exists_foldlM (I := fun c' => frame c' = frame (c, start))
    (f := readProcess pass.files) (l := pass.pids) (s := (c, start))
    (fun c₁ hsame pid hpid => by
      obtain ⟨c₂, hstep, hframe⟩ := readProcess_frame h hpid c₁
      exact ⟨c₂, hstep, hframe.trans hsame⟩) rfl
  obtain ⟨hprev, htotal, -⟩ := totals_of_frame hframe
  exact ⟨r, hread, hprev, htotal.trans hstart⟩

theorem numbers_shares_iff (c : ServCpuCollector) (l : CpuLocals) :
    Numbers (shares c l) ↔ subUInt64 l.totalTime c.prevTotalTime ≠ 0 := by
  rw [← isSome_quotient_nat (mulUInt32 100 l.cpuCount)]
  unfold Numbers shares
  simp only [List.forall_mem_cons, Option.isSome_map]
  simp

/-- The shares of an accepted pass are numbers if time has passed since the pass before. -/
theorem numbers_published_iff {c : ServCpuCollector} {pass : ProcPass} (h : Accepted pass)
    (hprev : c.prevTotalTime < 0x100000000) :
    (∀ p, c.published pass = some p → Numbers p) ↔
      c.prevTotalTime = 0 ∨ cpuTicks pass.cpuStat ≠ c.prevTotalTime := by
  obtain ⟨r, hread, hprev', htotal⟩ := readFiles_totals h c
  have hlt : cpuTicks pass.cpuStat < 0x100000000 := Nat.mod_lt _ (by decide)
  -- Both totals are below `2 ^ 32`, so their difference in 64 bits is zero only if they agree.
  have hsub : subUInt64 r.2.totalTime r.1.prevTotalTime ≠ 0
      ↔ cpuTicks pass.cpuStat ≠ c.prevTotalTime := by
    rw [hprev', htotal]
    unfold subUInt64
    omega
  unfold published
  rw [hread, Option.map_some, hprev', ← hsub, ← numbers_shares_iff]
  simp only [Option.some_inj, forall_eq']
  by_cases hzero : c.prevTotalTime = 0
  · simp [hzero, Numbers]
  · simp [hzero]

/-- The ticks of the last pass, and zero where there is none. -/
def lastTicks (passes : List ProcPass) : Nat :=
  (passes.getLast?.map fun pass => cpuTicks pass.cpuStat).getD 0

/-- The collector holds the total of the last pass. -/
theorem servRun_holds {passes : List ProcPass} (h : ∀ pass ∈ passes, Accepted pass) :
    ∃ c, servRun passes = some c ∧ c.prevTotalTime = lastTicks passes := by
  induction passes using List.reverseRecOn with
  | nil => exact ⟨{}, rfl, rfl⟩
  | append_singleton passes pass ih =>
      obtain ⟨c, hrun, -⟩ := ih fun q hq => h q (List.mem_append_left _ hq)
      obtain ⟨r, hread, -, htotal⟩ :=
        readFiles_totals (h pass (List.mem_append_right _ List.mem_cons_self)) c
      obtain ⟨c', hstep, hprev⟩ : ∃ c', (c.collect pass).map Prod.fst = some c' ∧
          c'.prevTotalTime = r.2.totalTime := by
        rw [collect_eq_readFiles, hread, Option.map_some, Option.map_some]
        split
        · exact ⟨_, rfl, rfl⟩
        · exact ⟨_, rfl, rfl⟩
      refine ⟨c', ?_, ?_⟩
      · unfold servRun at hrun ⊢
        rw [Fallible.foldlM_append_some hrun, Fallible.foldlM_cons_some hstep]
        rfl
      · unfold lastTicks
        rw [List.getLast?_concat, hprev, htotal]
        rfl

theorem lastTicks_lt (passes : List ProcPass) : lastTicks passes < 0x100000000 := by
  unfold lastTicks
  cases passes.getLast? with
  | none => exact Nat.succ_pos _
  | some pass => exact Nat.mod_lt _ (by decide)

/-- Only an accepted pass is read to its end. -/
theorem accepted_of_readFiles {c : ServCpuCollector} {pass : ProcPass}
    {r : ServCpuCollector × CpuLocals} (h : c.readFiles pass = some r) : Accepted pass := by
  intro pid hpid sched hsched line hline hname
  obtain ⟨c₁, c₂, hturn⟩ := Fallible.exists_step h hpid
  unfold readProcess at hturn
  rw [hsched] at hturn
  obtain ⟨c₃, hlines, -⟩ := Option.bind_eq_some_iff.mp hturn
  obtain ⟨c₄, c₅, hstep⟩ := Fallible.exists_step hlines hline
  unfold readSchedLine at hstep
  dsimp only at hstep
  rw [if_pos hname] at hstep
  obtain ⟨v, hv, -⟩ := Option.bind_eq_some_iff.mp hstep
  rw [hv]
  rfl

theorem accepted_of_servRun {passes : List ProcPass} {c : ServCpuCollector}
    (h : servRun passes = some c) : ∀ pass ∈ passes, Accepted pass := by
  intro pass hpass
  obtain ⟨c₁, c₂, hstep⟩ := Fallible.exists_step h hpass
  obtain ⟨r, hcollect, -⟩ := Option.map_eq_some_iff.mp hstep
  rw [collect_eq_readFiles] at hcollect
  obtain ⟨r', hread, -⟩ := Option.map_eq_some_iff.mp hcollect
  exact accepted_of_readFiles hread

/-- The shares of a service are numbers if, up to a pass that throws, time has passed between
any two passes, or the total was zero at the first of them. -/
theorem servNumbers_iff (passes : List ProcPass) : ServNumbers passes ↔
    ∀ before pass after, passes = before ++ pass :: after →
      (∀ q ∈ before ++ [pass], Accepted q) →
        lastTicks before = 0 ∨ cpuTicks pass.cpuStat ≠ lastTicks before := by
  constructor
  -- Accepted passes make a run, whose last quotient decides.
  · intro hnumbers before pass after hpasses haccepted
    obtain ⟨c, hrun, hprev⟩ := servRun_holds fun q hq => haccepted q (List.mem_append_left _ hq)
    rw [← hprev, ← numbers_published_iff
      (haccepted pass (List.mem_append_right _ List.mem_cons_self)) (hprev ▸ lastTicks_lt before)]
    exact fun p hp => hnumbers before pass after hpasses c p hrun hp
  -- A run that got so far has accepted its passes.
  · intro htime before pass after hpasses c p hrun hp
    have hbefore := accepted_of_servRun hrun
    obtain ⟨r, hread, -⟩ := Option.map_eq_some_iff.mp hp
    have hpass := accepted_of_readFiles hread
    obtain ⟨c₁, hrun₁, hprev⟩ := servRun_holds hbefore
    rw [hrun, Option.some_inj] at hrun₁
    subst hrun₁
    refine (numbers_published_iff hpass (hprev ▸ lastTicks_lt before)).mpr ?_ p hp
    rw [hprev]
    refine htime before pass after hpasses fun q hq => ?_
    rcases List.mem_append.mp hq with hq | hq
    · exact hbefore q hq
    · rw [List.mem_singleton.mp hq]
      exact hpass

end Service

/-! ### The index page -/

section Index
variable (env : Env) (os : OsState) (s : Service)

/-- The widths of the bar are numbers. -/
def IndexNumbers : Prop :=
  ∀ s' bar, s.getIndexHtml env os = some (s', bar) →
    bar.pctOk.isSome = true ∧ bar.pctFail.isSome = true

/-- A service that has got a process has a main process. -/
theorem mainProcess_addMainProcess_ne (p : Process) :
    (s.addMainProcess os p).mainProcess ≠ [] := by
  rcases Service.addMainProcess_cases os s p with ⟨-, hparent, h⟩ | ⟨-, -, h⟩ | ⟨-, h⟩
  · rw [h, Service.addSubProcess_eq]
    exact List.ne_nil_of_mem (List.mem_map.mp hparent).choose_spec.1
  · rw [h]
    simp
  · rw [h]
    simp

/-- The handler of a service without anything is not asked. -/
theorem askHandler_of_empty (hsockets : s.sockets = []) (hmain : s.mainProcess = []) :
    s.askHandler env os = some (s, false) := by
  have hfailed : s.failed os = false := by
    unfold Service.failed
    rw [hsockets, hmain]
    rfl
  unfold Service.askHandler
  rw [hfailed]
  cases s.handler <;> rfl

/-- The handler empties no service. -/
theorem askHandler_keeps {s' : Service} {b : Bool} (h : s.askHandler env os = some (s', b))
    (hs : s.sockets ≠ [] ∨ s.mainProcess ≠ []) : s'.sockets ≠ [] ∨ s'.mainProcess ≠ [] := by
  rcases askHandler_cases env os s with ⟨-, hsame⟩ | ⟨pid, b', -, hadded⟩
  · obtain rfl : s' = s := hsame (s', b) h
    exact hs
  · rw [h, Option.some_inj] at hadded
    obtain ⟨rfl, -⟩ := Prod.mk.inj hadded
    right
    rw [Service.updateMainProcess_eq]
    exact mainProcess_addMainProcess_ne os _ _

/-- Everything counts as failed or not. -/
theorem widths_iff (a : ℚ) (isBlackout : Bool) :
    let failed := s.sockets.countP (s.socketFails os isBlackout)
      + s.mainProcess.countP (Service.processFails os isBlackout)
    let ok := s.sockets.countP (fun i => !s.socketFails os isBlackout i)
      + s.mainProcess.countP (fun p => !Service.processFails os isBlackout p)
    (quotient a (ok + failed)).isSome = true ↔ s.sockets ≠ [] ∨ s.mainProcess ≠ [] := by
  intro failed ok
  have hsum : ok + failed = s.sockets.length + s.mainProcess.length := by
    have hsockets := List.length_eq_countP_add_countP (s.socketFails os isBlackout) (l := s.sockets)
    have hmain := List.length_eq_countP_add_countP (Service.processFails os isBlackout)
      (l := s.mainProcess)
    simp only [decide_not, Bool.decide_eq_true] at hsockets hmain
    omega
  rw [← Nat.cast_add, isSome_quotient_nat, hsum, ← List.length_pos_iff, ← List.length_pos_iff]
  omega

/-- A bar has numbers if the service shows anything. -/
theorem indexNumbers_iff : IndexNumbers env os s ↔ s.sockets ≠ [] ∨ s.mainProcess ≠ [] := by
  unfold IndexNumbers Service.getIndexHtml
  constructor
  -- The handler of an empty service is not asked, so the bar is that of an empty service.
  · intro hnumbers
    by_contra hempty
    rw [not_or, not_not, not_not] at hempty
    rw [askHandler_of_empty env os s hempty.1 hempty.2] at hnumbers
    exact absurd ((widths_iff os s _ false).mp (hnumbers s _ rfl).1)
      (by simp [hempty])
  · intro hs s' bar hbar
    obtain ⟨⟨s₁, b⟩, hask, hbar⟩ := Option.bind_eq_some_iff.mp hbar
    obtain ⟨rfl, rfl⟩ := Prod.mk.inj (Option.some.inj hbar)
    have hne := askHandler_keeps env os s hask hs
    exact ⟨(widths_iff os s₁ _ b).mpr hne, (widths_iff os s₁ _ b).mpr hne⟩

end Index

/-! ### All quotients -/

/-- For each of the five functions, the inputs on which every published value is a number: there
is swap and memory, the file system has blocks and inodes, the ticks of a processor have moved
since the reading before or are not zero in the first one, those of all processors have moved
since the pass before or were zero, where this pass and all before it are accepted, and the
service has a socket or a process. -/
theorem numbers_iff (meminfo : String) (fs : Statvfs) (raws : List (List String))
    (passes : List ProcPass) (env : Env) (os : OsState) (s : Service) :
    (MemoryNumbers meminfo ↔ (linesOf meminfo ≠ [] →
      lastNumber meminfo "SwapTotal" ≠ 0 ∧ lastNumber meminfo "MemTotal" ≠ 0)) ∧
    (Numbers (diskUsageSetStats fs) ↔ fs.blocks ≠ 0 ∧ fs.files ≠ 0) ∧
    (TickNumbers raws ↔ ∀ before raw after, raws = before ++ raw :: after →
      ticksOf raw ≠ (before.getLast?.map ticksOf).getD 0) ∧
    (ServNumbers passes ↔ ∀ before pass after, passes = before ++ pass :: after →
      (∀ q ∈ before ++ [pass], Accepted q) →
        lastTicks before = 0 ∨ cpuTicks pass.cpuStat ≠ lastTicks before) ∧
    (IndexNumbers env os s ↔ s.sockets ≠ [] ∨ s.mainProcess ≠ []) :=
  ⟨memoryNumbers_iff meminfo, numbers_disk_iff fs, tickNumbers_iff raws, servNumbers_iff passes,
    indexNumbers_iff env os s⟩

/-- A machine without swap. -/
def swapless : String :=
  fileOf ["MemTotal:        8000000 kB", "MemFree:         4000000 kB",
    "SwapTotal:             0 kB", "SwapFree:              0 kB"]

/-- A host without swap. -/
theorem not_numbers_without_swap : ¬ ∀ (meminfo : String) (fs : Statvfs)
    (raws : List (List String)) (passes : List ProcPass) (env : Env) (os : OsState) (s : Service),
    MemoryNumbers meminfo ∧ Numbers (diskUsageSetStats fs) ∧ TickNumbers raws ∧
      ServNumbers passes ∧ IndexNumbers env os s := by
  intro h
  have hmemory : MemoryNumbers swapless :=
    (h swapless ⟨4096, 1, 1, 1, 1⟩ [] [] {} (OsState.ofProcs []) {}).1
  have hlines : linesOf swapless = ["MemTotal:        8000000 kB", "MemFree:         4000000 kB",
      "SwapTotal:             0 kB", "SwapFree:              0 kB"] := linesOf_fileOf (by decide)
  obtain ⟨hswap, -⟩ := (memoryNumbers_iff swapless).mp hmemory (by simp [hlines])
  unfold lastNumber at hswap
  rw [hlines] at hswap
  exact absurd rfl hswap

end WatchedAgent.Proofs.Denominators
