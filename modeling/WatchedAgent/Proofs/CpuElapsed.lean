import Mathlib.Algebra.Order.BigOperators.Group.Finset
import Mathlib.Data.List.Chain
import Mathlib.Tactic.Linarith
import WatchedAgent.Lib.Counters
import WatchedAgent.Model.Shares
import WatchedAgent.Proofs.CpuFiles

/-!
# `WatchedAgent.Proofs.CpuElapsed`: the shares of a service

`ServCpuCollector` divides what the processes of its service have used by what all processors
have spent since the pass before. It adds up the times in 32 bits, subtracts them in 64, and
takes a total of zero for no pass at all.

The history of a collector is the list of all its readings, and its tables hold the last one of
each process modulo `2 ^ 32` (`Tabled`). A pass adds up what the processes have grown, each
counted once however often it is listed (`Midway`).

* `elapsed_exact_iff`: the shares are exact as long as nothing wraps.
* `not_exact_wrapped`: the pass after the total has wrapped.
-/

set_option autoImplicit false

namespace WatchedAgent.Proofs.CpuElapsed

open WatchedAgent.Lib
open WatchedAgent.Lib.Counters
open WatchedAgent.Lib.Text
open WatchedAgent.Model
open WatchedAgent.Model.ServCpuCollector
open WatchedAgent.Proofs.CpuFiles (CpuStat ProcStat SchedFile runtimeName)

/-! ### What a pass reads -/

/-- What a pass finds: `/proc/stat`, the PIDs of the service, and the files of the processes. -/
structure ServPass where
  cpuStat : CpuStat
  pids : List Nat
  sched : Nat → Option String
  stat : Nat → Option ProcStat

namespace ServPass
variable (p : ServPass)

def toPass : ProcPass where
  cpuStat := p.cpuStat.text
  pids := p.pids
  files := fun pid => { sched := p.sched pid, stat := (p.stat pid).map ProcStat.text }

/-- The total of the counters of all processors. -/
def total : Nat := p.cpuStat.times.sum

/-- The number of processors, which is one where none is listed. -/
def cpuCount : Nat := if p.cpuStat.cpus.length = 0 then 1 else p.cpuStat.cpus.length

/-- What is read of a process: one that shows both its files is read. -/
def reading (pid : Nat) : Option ProcStat := (p.sched pid).bind (fun _ => p.stat pid)

/-- What is read of some processes. -/
def readings (pids : List Nat) : List (Nat × ProcStat) :=
  pids.filterMap (fun pid => (p.reading pid).map (fun f => (pid, f)))

/-- Every runtime in a `sched` file is a number, and the names of the processes that are read
have no blanks. -/
structure Readable : Prop where
  runtime : ∀ pid ∈ p.pids, ∀ sched, p.sched pid = some sched → ∀ line ∈ linesOf sched,
    (tokens line)[0]? = some "se.sum_exec_runtime" →
      (stod ((tokens line)[2]?.getD "")).isSome = true
  comm : ∀ pid ∈ p.pids, ∀ f, p.reading pid = some f → ¬ HasBlank f.comm

end ServPass

/-- The file that the kernel writes names a runtime that can be read. -/
theorem sched_readable {f : SchedFile} (h : f.Plain) :
    ∀ line ∈ linesOf f.text, (tokens line)[0]? = some "se.sum_exec_runtime" →
      (stod ((tokens line)[2]?.getD "")).isSome = true := by
  intro line hline hname
  have hinfix : runtimeName.toList <:+: line.toList :=
    infix_of_mem_tokens (List.mem_of_getElem? hname)
  rw [f.linesOf_text h.comm] at hline
  -- Only the runtime line has the name in it.
  rcases List.mem_cons.mp hline with rfl | hline
  · exact absurd hinfix f.not_infix_header
  · rcases List.mem_append.mp hline with hbefore | hline
    · exact absurd hinfix (f.before_other line hbefore).runtime
    · rcases List.mem_cons.mp hline with rfl | hafter
      · rw [f.tokens_runtimeLine h.runtime]
        show (stod f.number).isSome = true
        rw [stod_of_digits f.toList_number]
        rfl
      · exact absurd hinfix (f.after_other line hafter).runtime

/-- A counter of the processes: the property it is published under, where it stands in the
file, and the variables of the collector. -/
structure Counter where
  name : String
  time : ProcStat → Nat
  table : ServCpuCollector → PidMap Nat
  res : CpuLocals → Nat

/-- The four counters. -/
def counters : List Counter :=
  [⟨"user", ProcStat.utime, ServCpuCollector.users, CpuLocals.resUsers⟩,
    ⟨"system", ProcStat.stime, ServCpuCollector.sys, CpuLocals.resSys⟩,
    ⟨"cuser", ProcStat.cutime, ServCpuCollector.cusers, CpuLocals.resCusers⟩,
    ⟨"csystem", ProcStat.cstime, ServCpuCollector.csys, CpuLocals.resCsys⟩]

/-! ### The turn of a process -/

/-- What the turns of processes leave alone. -/
def frame (c : ServCpuCollector × CpuLocals) : Nat × MembersOf (Option ℚ) × Nat × Nat :=
  (c.1.prevTotalTime, c.1.stat, c.2.totalTime, c.2.cpuCount)

/-- A counter and its sum. -/
def Counter.get (k : Counter) (c : ServCpuCollector × CpuLocals) : PidMap Nat × Nat :=
  (k.table c.1, k.res c.2)

/-- What a reading does to a counter. -/
def Counter.read (k : Counter) (pid : Nat) (f : ProcStat) (c : PidMap Nat × Nat) :
    PidMap Nat × Nat :=
  let v := k.time f % 0x100000000
  (Function.update c.1 pid (some v), grow (c.1 pid) v c.2)

section Turn
variable {c : ServCpuCollector × CpuLocals}

/-- What two states with one frame have in common. -/
theorem totals_of_frame {c' : ServCpuCollector × CpuLocals} (h : frame c' = frame c) :
    c'.1.prevTotalTime = c.1.prevTotalTime ∧ c'.2.totalTime = c.2.totalTime ∧
      c'.2.cpuCount = c.2.cpuCount := by
  unfold frame at h
  simp only [Prod.mk.injEq] at h
  exact ⟨h.1, h.2.2.1, h.2.2.2⟩

/-- A line of `sched` leaves the counters alone. -/
theorem readSchedLine_frame (pid : Nat) {line : String}
    (h : (tokens line)[0]? = some "se.sum_exec_runtime" →
      (stod ((tokens line)[2]?.getD "")).isSome = true) :
    ∃ c', readSchedLine pid c line = some c' ∧ frame c' = frame c ∧
      ∀ k ∈ counters, k.get c' = k.get c := by
  unfold readSchedLine
  dsimp only
  split
  · rename_i hname
    obtain ⟨v, hv⟩ := Option.isSome_iff_exists.mp (h hname)
    rw [hv]
    exact ⟨_, rfl, by simp only [frame], by simp [counters, Counter.get]⟩
  · split
    · exact ⟨_, rfl, by simp only [frame], by simp [counters, Counter.get]⟩
    · exact ⟨c, rfl, rfl, fun _ _ => rfl⟩

theorem foldlM_sched_frame (pid : Nat) {lines : List String}
    (h : ∀ line ∈ lines, (tokens line)[0]? = some "se.sum_exec_runtime" →
      (stod ((tokens line)[2]?.getD "")).isSome = true) :
    ∃ c', lines.foldlM (readSchedLine pid) c = some c' ∧ frame c' = frame c ∧
      ∀ k ∈ counters, k.get c' = k.get c := by
  refine Fallible.exists_foldlM (I := fun c' => frame c' = frame c ∧ ∀ k ∈ counters,
    k.get c' = k.get c) (fun c₁ hsame line hline => ?_) ⟨rfl, fun _ _ => rfl⟩
  obtain ⟨c₂, hstep, hframe, hget⟩ := readSchedLine_frame (c := c₁) pid (h line hline)
  exact ⟨c₂, hstep, hframe.trans hsame.1, fun k hk => (hget k hk).trans (hsame.2 k hk)⟩

/-- The turn of a process reads its counters, if it shows both files. -/
theorem readProcess_frame {p : ServPass} (h : p.Readable) {pid : Nat} (hpid : pid ∈ p.pids) :
    ∃ c', readProcess p.toPass.files c pid = some c' ∧ frame c' = frame c ∧
      ∀ k ∈ counters, k.get c'
        = ((p.reading pid).map (fun f => k.read pid f (k.get c))).getD (k.get c) := by
  unfold readProcess ServPass.toPass ServPass.reading
  dsimp only
  cases hsched : p.sched pid with
  | none => exact ⟨c, rfl, rfl, fun _ _ => rfl⟩
  | some sched =>
      -- The counters are as before when the turn comes to `stat`.
      obtain ⟨c₁, hlines, hframe, hget⟩ := foldlM_sched_frame (c := c) pid
        (h.runtime pid hpid sched hsched)
      dsimp only
      rw [hlines, Option.bind_eq_bind, Option.bind_some]
      cases hstat : p.stat pid with
      | none => exact ⟨c₁, rfl, hframe, hget⟩
      | some f =>
          have hread : p.reading pid = some f := by
            unfold ServPass.reading
            rw [hsched, Option.bind_some, hstat]
          have hlen := f.line.length_tokens_text
          obtain ⟨huser, hsys, hcuser, hcsys⟩ := f.wordValue_text (h.comm pid hpid f hread)
          dsimp only [Option.map_some, Option.bind_some]
          rw [f.linesOf_text, List.head?_cons]
          dsimp only
          rw [if_neg (by omega)]
          unfold readStatLine
          dsimp only at huser hsys hcuser hcsys ⊢
          rw [huser, hsys, hcuser, hcsys]
          refine ⟨_, rfl, hframe, fun k hk => ?_⟩
          show k.get _ = k.read pid f (k.get c)
          rw [← hget k hk]
          simp only [counters, List.mem_cons, List.not_mem_nil, or_false] at hk
          rcases hk with rfl | rfl | rfl | rfl <;> rfl

end Turn

/-! ### The loop over the processes -/

/-- What a reading adds to a sum: the growth modulo `2 ^ 32`, where the counter has not become
smaller. -/
def Counter.added (k : Counter) (past : List (Nat × ProcStat)) (pid : Nat) (f : ProcStat) : Nat :=
  growth ((lastReading past pid).map (fun old => k.time old % 0x100000000))
    (k.time f % 0x100000000)

/-- What a counter has grown since the process was read last. -/
def Counter.grown (k : Counter) (past : List (Nat × ProcStat)) (pid : Nat) (f : ProcStat) : Nat :=
  growth ((lastReading past pid).map k.time) (k.time f)

/-- A sum over the processes that are read, each taken once. -/
def sumRead (p : ServPass) (pids : List Nat) (f : Nat → ProcStat → Nat) : Nat :=
  ∑ pid ∈ pids.toFinset, ((p.reading pid).map (f pid)).getD 0

/-- The table of a counter holds the last readings modulo `2 ^ 32`. -/
def Counter.Tabled (k : Counter) (past : List (Nat × ProcStat)) (t : PidMap Nat) : Prop :=
  ∀ pid, t pid = (lastReading past pid).map (fun f => k.time f % 0x100000000)

/-- A process that is in the list again adds nothing, and others add to the sum. -/
theorem sumRead_append (p : ServPass) (pids : List Nat) (pid : Nat) (f : Nat → ProcStat → Nat) :
    sumRead p (pids ++ [pid]) f = sumRead p pids f
      + if pid ∈ pids then 0 else ((p.reading pid).map (f pid)).getD 0 := by
  -- The sum is over the set of the PIDs, so that each counts once.
  have hset : (pids ++ [pid]).toFinset = insert pid pids.toFinset := by
    ext q
    simp
  unfold sumRead
  rw [hset]
  by_cases hpid : pid ∈ pids
  · rw [Finset.insert_eq_of_mem (List.mem_toFinset.mpr hpid), if_pos hpid, Nat.add_zero]
  · rw [Finset.sum_insert (fun h => hpid (List.mem_toFinset.mp h)), if_neg hpid, Nat.add_comm]

theorem readings_append (p : ServPass) (pids : List Nat) (pid : Nat) :
    p.readings (pids ++ [pid])
      = p.readings pids ++ ((p.reading pid).map (fun f => (pid, f))).toList := by
  unfold ServPass.readings
  rw [List.filterMap_append]
  cases h : p.reading pid <;> simp [h]

/-- The last reading of a process within a pass is the one of the pass. -/
theorem lastReading_readings (past : List (Nat × ProcStat)) (p : ServPass) {pids : List Nat}
    {pid : Nat} (hpid : pid ∈ pids) {f : ProcStat} (hf : p.reading pid = some f) :
    lastReading (past ++ p.readings pids) pid = some f := by
  induction pids using List.reverseRecOn with
  | nil => exact absurd hpid List.not_mem_nil
  | append_singleton pids q ih =>
      rw [readings_append, ← List.append_assoc]
      -- Either the last process of the list is the one asked for, or it stands before it.
      by_cases hq : pid = q
      · subst hq
        rw [hf, Option.map_some]
        show lastReading (past ++ p.readings pids ++ [(pid, f)]) pid = some f
        rw [lastReading_append, if_pos rfl]
      · have hmem : pid ∈ pids := (List.mem_append.mp hpid).resolve_right (by simpa using hq)
        cases hread : p.reading q with
        | none =>
            rw [Option.map_none, Option.toList_none, List.append_nil]
            exact ih hmem
        | some g =>
            show lastReading (past ++ p.readings pids ++ [(q, g)]) pid = some f
            rw [lastReading_append, if_neg hq]
            exact ih hmem

theorem lastReading_readings_of_not_mem (past : List (Nat × ProcStat)) (p : ServPass)
    {pids : List Nat} {pid : Nat} (hpid : pid ∉ pids) :
    lastReading (past ++ p.readings pids) pid = lastReading past pid := by
  refine lastReading_append_of_not_mem past fun h => hpid ?_
  obtain ⟨e, he, rfl⟩ := List.mem_map.mp h
  obtain ⟨q, hq, heq⟩ := List.mem_filterMap.mp he
  obtain ⟨f, -, rfl⟩ := Option.map_eq_some_iff.mp heq
  exact hq

/-- The growth of a counter is added, as long as the sum fits. -/
theorem grow_eq {old : Option Nat} {v res : Nat} (h : res + growth old v < 0x100000000) :
    grow old v res = res + growth old v := by
  cases old with
  | none => rfl
  | some o =>
      change res + (v - o) < 0x100000000 at h
      show (if o < v then addUInt32 res (v - o) else res) = res + (v - o)
      split
      · exact Nat.mod_eq_of_lt h
      · omega

/-- A collector in the middle of a pass. -/
structure Midway (past : List (Nat × ProcStat)) (p : ServPass) (done : List Nat)
    (c c' : ServCpuCollector × CpuLocals) : Prop where
  frame_eq : frame c' = frame c
  tabled : ∀ k ∈ counters, k.Tabled (past ++ p.readings done) (k.table c'.1)
  res : ∀ k ∈ counters, k.res c'.2 = sumRead p done (k.added past)

section Loop
variable {past : List (Nat × ProcStat)} {p : ServPass} {c : ServCpuCollector × CpuLocals}

/-- A reading of a table and its sum. -/
theorem read_midway {k : Counter} {done : List Nat} {t : PidMap Nat} {r pid : Nat} {f : ProcStat}
    (htabled : k.Tabled (past ++ p.readings done) t) (hr : r = sumRead p done (k.added past))
    (hf : p.reading pid = some f)
    (hsmall : sumRead p (done ++ [pid]) (k.added past) < 0x100000000) :
    k.Tabled (past ++ p.readings (done ++ [pid])) (k.read pid f (t, r)).1 ∧
      (k.read pid f (t, r)).2 = sumRead p (done ++ [pid]) (k.added past) := by
  constructor
  · intro q
    rw [readings_append, hf, ← List.append_assoc]
    show Function.update t pid _ q = (lastReading (past ++ p.readings done ++ [(pid, f)]) q).map _
    rw [lastReading_append]
    by_cases hq : q = pid
    · rw [hq, Function.update_self, if_pos rfl]
      rfl
    · rw [Function.update_of_ne hq, if_neg hq, htabled q]
  · rw [sumRead_append, hf] at hsmall ⊢
    show grow (t pid) (k.time f % 0x100000000) r = _
    rw [htabled pid, hr]
    by_cases hpid : pid ∈ done
    · -- The process was read in this pass already, and has not grown since.
      rw [lastReading_readings past p hpid hf, if_pos hpid, Nat.add_zero]
      show (if k.time f % 0x100000000 < k.time f % 0x100000000 then _ else _) = _
      rw [if_neg (Nat.lt_irrefl _)]
    · rw [lastReading_readings_of_not_mem past p hpid]
      rw [if_neg hpid] at hsmall ⊢
      exact grow_eq hsmall

/-- The loop of a pass, whose sums fit. -/
theorem midway_foldlM (h : p.Readable) (hstart : ∀ k ∈ counters, k.Tabled past (k.table c.1))
    (hzero : ∀ k ∈ counters, k.res c.2 = 0) (done : List Nat)
    (hdone : ∀ pid ∈ done, pid ∈ p.pids)
    (hsmall : ∀ k ∈ counters, sumRead p done (k.added past) < 0x100000000) :
    ∃ c', done.foldlM (readProcess p.toPass.files) c = some c' ∧ Midway past p done c c' := by
  induction done using List.reverseRecOn with
  | nil =>
      refine ⟨c, rfl, rfl, fun k hk => ?_, fun k hk => hzero k hk⟩
      show k.Tabled (past ++ []) _
      rw [List.append_nil]
      exact hstart k hk
  | append_singleton done pid ih =>
      -- A sum that fits at the end fits all along.
      have hbefore : ∀ k ∈ counters, sumRead p done (k.added past) < 0x100000000 := by
        intro k hk
        have hk' := hsmall k hk
        rw [sumRead_append] at hk'
        omega
      obtain ⟨c₁, hfold, hmidway⟩ := ih (fun q hq => hdone q (List.mem_append_left _ hq)) hbefore
      obtain ⟨c₂, hturn, hframe, hget⟩ := readProcess_frame (c := c₁) h
        (hdone pid (List.mem_append_right _ List.mem_cons_self))
      have hread : ∀ k ∈ counters,
          k.Tabled (past ++ p.readings (done ++ [pid])) (k.get c₂).1 ∧
            (k.get c₂).2 = sumRead p (done ++ [pid]) (k.added past) := by
        intro k hk
        rw [hget k hk]
        cases hf : p.reading pid with
        | some f => exact read_midway (hmidway.tabled k hk) (hmidway.res k hk) hf (hsmall k hk)
        | none =>
            rw [readings_append, sumRead_append, hf]
            show k.Tabled (past ++ (p.readings done ++ [])) _ ∧
              k.res c₁.2 = sumRead p done (k.added past) + if pid ∈ done then 0 else 0
            rw [List.append_nil, ite_self, Nat.add_zero]
            exact ⟨hmidway.tabled k hk, hmidway.res k hk⟩
      refine ⟨c₂, ?_, hframe.trans hmidway.frame_eq, fun k hk => (hread k hk).1,
        fun k hk => (hread k hk).2⟩
      rw [Fallible.foldlM_append_some hfold, Fallible.foldlM_cons_some hturn]
      rfl

end Loop

/-! ### A pass -/

/-- The growth modulo `2 ^ 32` is not more than the growth, and is all of it where the counter
has not wrapped. -/
theorem growth_mod_le {a b : Nat} (hle : a ≤ b) (hlt : b - a < 0x100000000) :
    b % 0x100000000 - a % 0x100000000 ≤ b - a ∧
      (b % 0x100000000 - a % 0x100000000 = b - a ↔ b / 0x100000000 = a / 0x100000000) := by
  omega

section Pass
variable {past : List (Nat × ProcStat)} {p : ServPass}

/-- No counter of a process that is read goes back. -/
def Forward (past : List (Nat × ProcStat)) (p : ServPass) : Prop :=
  ∀ pid ∈ p.pids, ∀ f, p.reading pid = some f → ∀ old, lastReading past pid = some old →
    ∀ k ∈ counters, k.time old ≤ k.time f

/-- What a counter of all processes has grown. -/
def ServPass.grown (p : ServPass) (past : List (Nat × ProcStat)) (k : Counter) : Nat :=
  sumRead p p.pids (k.grown past)

/-- The counter has not wrapped in any process that is read. -/
def Unwrapped (past : List (Nat × ProcStat)) (p : ServPass) (k : Counter) : Prop :=
  ∀ pid ∈ p.pids, ∀ f, p.reading pid = some f → ∀ old, lastReading past pid = some old →
    k.time f / 0x100000000 = k.time old / 0x100000000

theorem added_le (hforward : Forward past p) {k : Counter} (hk : k ∈ counters)
    (hsmall : p.grown past k < 0x100000000) {pid : Nat} (hpid : pid ∈ p.pids.toFinset) :
    ((p.reading pid).map (k.added past pid)).getD 0
        ≤ ((p.reading pid).map (k.grown past pid)).getD 0 ∧
      (((p.reading pid).map (k.added past pid)).getD 0
          = ((p.reading pid).map (k.grown past pid)).getD 0 ↔
        ∀ f, p.reading pid = some f → ∀ old, lastReading past pid = some old →
          k.time f / 0x100000000 = k.time old / 0x100000000) := by
  -- One process has grown by no more than all of them.
  have hone : ((p.reading pid).map (k.grown past pid)).getD 0 < 0x100000000 :=
    Nat.lt_of_le_of_lt (Finset.single_le_sum
      (f := fun pid => ((p.reading pid).map (k.grown past pid)).getD 0)
      (fun _ _ => Nat.zero_le _) hpid) hsmall
  cases hf : p.reading pid with
  | none => simp
  | some f =>
      rw [hf] at hone
      unfold Counter.added Counter.grown at *
      cases hold : lastReading past pid with
      | none => simp [growth]
      | some old =>
          rw [hold] at hone
          have hle := hforward pid (List.mem_toFinset.mp hpid) f hf old hold k hk
          have hgrowth := growth_mod_le hle hone
          simpa [growth] using hgrowth

/-- The sum of the collector is the growth exactly where no counter has wrapped. -/
theorem sumRead_added (hforward : Forward past p) {k : Counter} (hk : k ∈ counters)
    (hsmall : p.grown past k < 0x100000000) :
    sumRead p p.pids (k.added past) ≤ p.grown past k ∧
      (sumRead p p.pids (k.added past) = p.grown past k ↔ Unwrapped past p k) := by
  have hle := fun pid (hpid : pid ∈ p.pids.toFinset) => (added_le hforward hk hsmall hpid).1
  refine ⟨Finset.sum_le_sum hle, (Finset.sum_eq_sum_iff_of_le hle).trans ?_⟩
  unfold Unwrapped
  refine forall_congr' fun pid => ?_
  rw [List.mem_toFinset]
  exact imp_congr_right fun hpid =>
    (added_le hforward hk hsmall (List.mem_toFinset.mpr hpid)).2

/-- A collector after some passes, the last of which had read the total. -/
structure Holds (past : List (Nat × ProcStat)) (total : Nat) (c : ServCpuCollector) : Prop where
  tabled : ∀ k ∈ counters, k.Tabled past (k.table c)
  prevTotalTime_eq : c.prevTotalTime = total % 0x100000000

/-- The count of processors as the collector has it. -/
def ServPass.countTaken (p : ServPass) : Nat :=
  if p.cpuStat.cpus.length % 0x100000000 = 0 then 1 else p.cpuStat.cpus.length % 0x100000000

theorem countTaken_le (p : ServPass) : (100 * p.countTaken) % 0x100000000 ≤ 100 * p.cpuCount ∧
    ((100 * p.countTaken) % 0x100000000 = 100 * p.cpuCount ↔ 100 * p.cpuCount < 0x100000000) := by
  unfold ServPass.countTaken ServPass.cpuCount
  split <;> split <;> omega

/-- What a pass publishes under a counter. -/
theorem lookup_publish (c : ServCpuCollector) (l : CpuLocals) {k : Counter} (hk : k ∈ counters) :
    (c.publish l).stat.lookup k.name = some ((quotient ((100 * l.cpuCount) % 0x100000000 : Nat)
      (subUInt64 l.totalTime c.prevTotalTime : Nat)).map ((k.res l : ℚ) * ·)) := by
  unfold ServCpuCollector.publish
  simp only [counters, List.mem_cons, List.not_mem_nil, or_false] at hk
  rcases hk with rfl | rfl | rfl | rfl <;> simp [MembersOf.lookup_setProperty]

/-- The end of a pass leaves the tables alone. -/
theorem table_publish (c : ServCpuCollector) (l : CpuLocals) (n : Nat) {k : Counter}
    (hk : k ∈ counters) : k.table { c with prevTotalTime := n } = k.table c ∧
      k.table { c.publish l with prevTotalTime := n } = k.table c := by
  simp only [counters, List.mem_cons, List.not_mem_nil, or_false] at hk
  rcases hk with rfl | rfl | rfl | rfl <;> exact ⟨rfl, rfl⟩

/-- The variables of a pass after `/proc/stat` was read. -/
def ServPass.start (p : ServPass) : CpuLocals where
  totalTime := p.total % 0x100000000
  cpuCount := p.countTaken

theorem readFiles_toPass (c : ServCpuCollector) :
    c.readFiles p.toPass = p.pids.foldlM (readProcess p.toPass.files) (c, p.start) := by
  have hstart : (if p.cpuStat.cpus.length % 0x100000000 = 0
      then ({ totalTime := p.cpuStat.times.sum % 0x100000000, cpuCount := 1 } : CpuLocals)
      else { totalTime := p.cpuStat.times.sum % 0x100000000,
             cpuCount := p.cpuStat.cpus.length % 0x100000000 }) = p.start := by
    unfold ServPass.start ServPass.countTaken
    split <;> rfl
  unfold ServCpuCollector.readFiles
  rw [show linesOf p.toPass.cpuStat = linesOf p.cpuStat.text from rfl,
    p.cpuStat.foldl_readCpuLine_mod]
  dsimp only
  rw [hstart]
  rfl

/-- What a pass does: its tables, and what it publishes if there was a pass before. -/
theorem collect_eq {c : ServCpuCollector} {total : Nat} (hc : Holds past total c)
    (hread : p.Readable) (hforward : Forward past p)
    (hsmall : ∀ k ∈ counters, p.grown past k < 0x100000000) :
    ∃ c', c.collect p.toPass = some (c', decide (total % 0x100000000 ≠ 0)) ∧
      Holds (past ++ p.readings p.pids) p.total c' ∧
      (total % 0x100000000 ≠ 0 → ∀ k ∈ counters, c'.stat.lookup k.name
        = some ((quotient ((100 * p.countTaken) % 0x100000000 : Nat)
          (subUInt64 (p.total % 0x100000000) (total % 0x100000000) : Nat)).map
            ((sumRead p p.pids (k.added past) : ℚ) * ·))) := by
  obtain ⟨⟨c₁, l⟩, hfold, hmidway⟩ := midway_foldlM (c := (c, p.start)) hread hc.tabled
    (by simp [counters, ServPass.start]) p.pids (fun _ hpid => hpid)
    fun k hk => Nat.lt_of_le_of_lt (sumRead_added hforward hk (hsmall k hk)).1 (hsmall k hk)
  obtain ⟨hprev, htotal, hcount⟩ := totals_of_frame hmidway.frame_eq
  have hprev' : c₁.prevTotalTime = total % 0x100000000 := hprev.trans hc.prevTotalTime_eq
  rw [collect_eq_readFiles, readFiles_toPass, hfold, Option.map_some]
  dsimp only
  rw [hprev']
  -- A total of zero is taken for no pass at all.
  by_cases hzero : total % 0x100000000 = 0
  · rw [if_neg (not_not_intro hzero), decide_eq_false (not_not_intro hzero)]
    refine ⟨_, rfl, ⟨fun k hk => ?_, htotal⟩, fun hne => absurd hzero hne⟩
    rw [(table_publish c₁ l l.totalTime hk).1]
    exact hmidway.tabled k hk
  · rw [if_pos hzero, decide_eq_true hzero]
    refine ⟨_, rfl, ⟨fun k hk => ?_, htotal⟩, fun _ k hk => ?_⟩
    · rw [(table_publish c₁ l l.totalTime hk).2]
      exact hmidway.tabled k hk
    · have hpublish := lookup_publish c₁ l hk
      rw [hmidway.res k hk, hcount, htotal, hprev'] at hpublish
      exact hpublish

/-! ### The shares -/

/-- The total of the processors has grown, by less than `2 ^ 32`. -/
structure Elapses (prev cur : ServPass) : Prop where
  pos : prev.total < cur.total
  lt : cur.total - prev.total < 0x100000000

/-- The difference of the totals, as the collector takes it. -/
def elapsedTaken (prev cur : ServPass) : Nat :=
  subUInt64 (cur.total % 0x100000000) (prev.total % 0x100000000)

theorem elapsedTaken_le {prev cur : ServPass} (h : Elapses prev cur) :
    cur.total - prev.total ≤ elapsedTaken prev cur ∧ (elapsedTaken prev cur = cur.total - prev.total ↔
      cur.total / 0x100000000 = prev.total / 0x100000000) := by
  obtain ⟨hpos, hlt⟩ := h
  unfold elapsedTaken subUInt64
  omega

/-- The pass publishes the exact share under each counter. -/
def Exact (past : List (Nat × ProcStat)) (prev cur : ServPass) (c : ServCpuCollector) : Prop :=
  ∃ c', c.collect cur.toPass = some (c', true) ∧ ∀ k ∈ counters, c'.stat.lookup k.name
    = some (some (100 * (cur.cpuCount : ℚ) * cur.grown past k / (cur.total - prev.total : Nat)))

/-- Nothing wraps on the way to the shares. -/
structure Unwound (past : List (Nat × ProcStat)) (prev cur : ServPass) : Prop where
  prev_ne : prev.total % 0x100000000 ≠ 0
  share : ∀ k ∈ counters, cur.grown past k = 0 ∨
    (cur.total / 0x100000000 = prev.total / 0x100000000 ∧ 100 * cur.cpuCount < 0x100000000 ∧
      Unwrapped past cur k)

/-- A quotient whose parts are off to one side is right if no part is off, or if it is zero. -/
theorem share_eq_iff {R S n N d D : Nat} (hR : R ≤ S) (hn : n ≤ N) (hd : D ≤ d) (hD : 0 < D)
    (hN : 0 < N) :
    (R : ℚ) * ((n : ℚ) / d) = (N : ℚ) * S / D ↔ S = 0 ∨ (d = D ∧ n = N ∧ R = S) := by
  have hd' : (d : ℚ) ≠ 0 := Nat.cast_ne_zero.mpr (by omega)
  have hD' : (D : ℚ) ≠ 0 := Nat.cast_ne_zero.mpr (by omega)
  rw [← mul_div_assoc, div_eq_div_iff hd' hD']
  have hcast : (R : ℚ) * n * D = N * S * d ↔ R * n * D = N * S * d := by
    norm_cast
  rw [hcast]
  constructor
  · intro heq
    rcases Nat.eq_zero_or_pos S with hS | hS
    · exact .inl hS
    · -- The three parts can only be too small, too small and too large.
      have hNS : 0 < N * S := Nat.mul_pos hN hS
      have hle : R * n ≤ N * S := Nat.mul_comm R n ▸ Nat.mul_le_mul hn hR
      have hdD : d = D := by
        have hmul : N * S * d ≤ N * S * D := heq ▸ Nat.mul_le_mul_right D hle
        exact Nat.le_antisymm (Nat.le_of_mul_le_mul_left hmul hNS) hd
      rw [hdD] at heq
      -- With the same denominator, the numerators are equal, and so are their factors.
      have hRn : R * n = N * S := Nat.eq_of_mul_eq_mul_right hD heq
      have hRS : R = S := by
        have hmul : N * S ≤ N * R := by
          rw [← hRn, Nat.mul_comm]
          exact Nat.mul_le_mul_right R hn
        exact Nat.le_antisymm hR (Nat.le_of_mul_le_mul_left hmul hN)
      rw [hRS, Nat.mul_comm] at hRn
      exact .inr ⟨hdD, Nat.eq_of_mul_eq_mul_right hS hRn, hRS⟩
  · rintro (hS | ⟨rfl, rfl, rfl⟩)
    · rw [hS, show R = 0 by omega, Nat.zero_mul, Nat.zero_mul, Nat.mul_zero, Nat.zero_mul]
    · rw [Nat.mul_comm R]

/-- The shares of a pass are exact exactly where nothing wraps. -/
theorem exact_iff {prev : ServPass} {c : ServCpuCollector} (hc : Holds past prev.total c)
    (hread : p.Readable) (helapses : Elapses prev p) (hforward : Forward past p)
    (hsmall : ∀ k ∈ counters, p.grown past k < 0x100000000) :
    Exact past prev p c ↔ Unwound past prev p := by
  obtain ⟨c', hcollect, -, hstat⟩ := collect_eq hc hread hforward hsmall
  have hpos := helapses.pos
  have hcount : 0 < 100 * p.cpuCount := by
    unfold ServPass.cpuCount
    split <;> omega
  obtain ⟨hle, heq⟩ := elapsedTaken_le helapses
  -- Time has passed, so the quotients are numbers.
  have hne : (elapsedTaken prev p : ℚ) ≠ 0 := Nat.cast_ne_zero.mpr (by omega)
  have hsome := quotient_of_ne (((100 * p.countTaken) % 0x100000000 : Nat) : ℚ) hne
  unfold elapsedTaken at hsome
  rw [hsome] at hstat
  have hshare : ∀ k ∈ counters, ((sumRead p p.pids (k.added past) : ℚ) *
      (((100 * p.countTaken) % 0x100000000 : Nat) / (elapsedTaken prev p : Nat))
        = 100 * (p.cpuCount : ℚ) * p.grown past k / (p.total - prev.total : Nat)) ↔
      (p.grown past k = 0 ∨ (p.total / 0x100000000 = prev.total / 0x100000000 ∧
        100 * p.cpuCount < 0x100000000 ∧ Unwrapped past p k)) := by
    intro k hk
    obtain ⟨hadded, hunwrapped⟩ := sumRead_added hforward hk (hsmall k hk)
    rw [← heq, ← (countTaken_le p).2, ← hunwrapped,
      ← share_eq_iff hadded (countTaken_le p).1 hle (by omega) hcount]
    push_cast
    exact Iff.rfl
  constructor
  -- A sample was made, and each of its values decides its counter.
  · rintro ⟨c₁, hexact, hvalue⟩
    rw [hcollect, Option.some_inj, Prod.mk.injEq] at hexact
    obtain ⟨rfl, hmade⟩ := hexact
    have hne := of_decide_eq_true hmade
    refine ⟨hne, fun k hk => (hshare k hk).mp ?_⟩
    have hk' := (hstat hne k hk).symm.trans (hvalue k hk)
    exact Option.some.inj (Option.some.inj hk')
  · rintro ⟨hne, hunwound⟩
    refine ⟨c', by rw [hcollect, decide_eq_true hne], fun k hk => ?_⟩
    rw [hstat hne k hk]
    exact congrArg (fun q => some (some q)) ((hshare k hk).mpr (hunwound k hk))

end Pass

/-! ### Runs -/

/-- A new collector after some passes. -/
def run (passes : List ServPass) : Option ServCpuCollector :=
  passes.foldlM (fun c p => (c.collect p.toPass).map Prod.fst) {}

/-- Everything that is read in some passes. -/
def history (passes : List ServPass) : List (Nat × ProcStat) :=
  passes.flatMap (fun p => p.readings p.pids)

/-- The passes of a machine that only moves on: the total grows between two passes, no counter
of a process goes back, and what they grow in a pass fits. -/
structure Advances (passes : List ServPass) : Prop where
  elapses : passes.IsChain Elapses
  forward : ∀ before p after, passes = before ++ p :: after → Forward (history before) p
  small : ∀ before p after, passes = before ++ p :: after →
    ∀ k ∈ counters, p.grown (history before) k < 0x100000000

/-- The total of the last pass. -/
def lastTotal (passes : List ServPass) : Nat := (passes.getLast?.map ServPass.total).getD 0

/-- The passes of a machine that moves on bring the collector along. -/
theorem holds_run {passes : List ServPass} (hread : ∀ p ∈ passes, p.Readable)
    (h : Advances passes) {before after : List ServPass} (hpasses : passes = before ++ after) :
    ∃ c, run before = some c ∧ Holds (history before) (lastTotal before) c := by
  induction before using List.reverseRecOn generalizing after with
  | nil =>
      refine ⟨{}, rfl, fun k hk pid => ?_, rfl⟩
      simp only [counters, List.mem_cons, List.not_mem_nil, or_false] at hk
      rcases hk with rfl | rfl | rfl | rfl <;> rfl
  | append_singleton before p ih =>
      rw [List.append_assoc, List.singleton_append] at hpasses
      obtain ⟨c, hrun, hc⟩ := ih hpasses
      have hp : p ∈ passes := by
        rw [hpasses]
        exact List.mem_append_right _ List.mem_cons_self
      obtain ⟨c', hcollect, hc', -⟩ := collect_eq hc (hread p hp) (h.forward _ _ _ hpasses)
        (h.small _ _ _ hpasses)
      refine ⟨c', ?_, ?_⟩
      · unfold run at hrun ⊢
        rw [Fallible.foldlM_append_some hrun]
        show ((c.collect p.toPass).map Prod.fst).bind _ = _
        rw [hcollect]
        rfl
      · have hhistory : history (before ++ [p]) = history before ++ p.readings p.pids := by
          unfold history
          rw [List.flatMap_append, List.flatMap_singleton]
        have hlast : lastTotal (before ++ [p]) = p.total := by
          unfold lastTotal
          rw [List.getLast?_concat]
          rfl
        rw [hhistory, hlast]
        exact hc'

/-- In such a run, a pass has exact shares exactly where nothing wraps. -/
theorem pass_iff {passes : List ServPass} (hread : ∀ p ∈ passes, p.Readable) (h : Advances passes)
    {before after : List ServPass} {prev cur : ServPass}
    (hpasses : passes = before ++ prev :: cur :: after) :
    (∃ c, run (before ++ [prev]) = some c ∧ Exact (history (before ++ [prev])) prev cur c) ↔
      Unwound (history (before ++ [prev])) prev cur := by
  have hsplit : passes = (before ++ [prev]) ++ cur :: after := by
    rw [hpasses, List.append_assoc, List.singleton_append]
  obtain ⟨c, hrun, hc⟩ := holds_run hread h hsplit
  have hlast : lastTotal (before ++ [prev]) = prev.total := by
    unfold lastTotal
    rw [List.getLast?_concat]
    rfl
  rw [hlast] at hc
  have hcur : cur ∈ passes := by
    rw [hsplit]
    exact List.mem_append_right _ List.mem_cons_self
  have helapses := List.isChain_iff_forall_rel_of_append_cons_cons.mp h.elapses hpasses
  rw [← exact_iff hc (hread cur hcur) helapses (h.forward _ _ _ hsplit) (h.small _ _ _ hsplit)]
  constructor
  · rintro ⟨c₁, hrun₁, hexact⟩
    rw [hrun, Option.some_inj] at hrun₁
    exact hrun₁ ▸ hexact
  · exact fun hexact => ⟨c, hrun, hexact⟩

/-- In every run whose passes can be read, the shares are exact from the second pass on if and
only if nothing wraps in any of these passes. -/
theorem elapsed_exact_iff (passes : List ServPass) (hread : ∀ p ∈ passes, p.Readable)
    (h : Advances passes) :
    (∀ before prev cur after, passes = before ++ prev :: cur :: after →
      ∃ c, run (before ++ [prev]) = some c ∧ Exact (history (before ++ [prev])) prev cur c) ↔
    ∀ before prev cur after, passes = before ++ prev :: cur :: after →
      Unwound (history (before ++ [prev])) prev cur := by
  constructor
  · intro hexact before prev cur after hpasses
    exact (pass_iff hread h hpasses).mp (hexact before prev cur after hpasses)
  · intro hunwound before prev cur after hpasses
    exact (pass_iff hread h hpasses).mpr (hunwound before prev cur after hpasses)

/-- A process with some user time. -/
def process (utime : Nat) : ProcStat where
  pid := 20
  comm := "nginx"
  state := 'R'
  before := [1, 20, 20, 0, -1, 64, 80, 0, 0, 0]
  utime := utime
  stime := 7
  cutime := 0
  cstime := 0
  after := [20, 0, 1]
  comm_line := by decide
  state_alpha := by decide
  length_before := by decide

/-- A pass over the process. -/
def machine (total utime : Nat) : ServPass where
  cpuStat := ⟨[total], [(0, [total])], [("btime", [9])], by decide⟩
  pids := [20]
  sched := fun _ => some (SchedFile.text
    { comm := "nginx", pid := 20, threads := 2, before := [], ms := 3, ns := 5000, after := [],
      comm_length := by decide, before_other := by simp, after_other := by simp })
  stat := fun _ => some (process utime)

theorem readable_machine (total utime : Nat) : (machine total utime).Readable where
  runtime := by
    intro _ _ _ hsched
    rw [← Option.some.inj hsched]
    exact sched_readable ⟨⟨by decide, by decide⟩, by decide⟩
  comm := by
    intro _ _ f hf
    rw [← Option.some.inj hf]
    show ¬ HasBlank "nginx"
    decide

theorem total_machine (total utime : Nat) : (machine total utime).total = total := by
  simp [machine, ServPass.total]

/-- What the process has grown between two passes. -/
theorem grown_machine (t t' u u' : Nat) (k : Counter) :
    (machine t' u').grown (history [machine t u]) k = k.time (process u') - k.time (process u) := by
  have hhistory : history [machine t u] = [(20, process u)] := rfl
  rw [hhistory]
  simp [ServPass.grown, sumRead, machine, ServPass.reading, Counter.grown, lastReading, growth]

theorem time_process {u u' : Nat} (hu : u ≤ u') {k : Counter} (hk : k ∈ counters) :
    k.time (process u) ≤ k.time (process u') ∧
      k.time (process u') - k.time (process u) ≤ u' - u := by
  simp only [counters, List.mem_cons, List.not_mem_nil, or_false] at hk
  rcases hk with rfl | rfl | rfl | rfl <;> simp [process, hu]

/-- A list of two has two splits. -/
theorem pair_split {x y p : ServPass} {before after : List ServPass}
    (h : [x, y] = before ++ p :: after) : (before = [] ∧ p = x) ∨ (before = [x] ∧ p = y) := by
  cases before with
  | nil => exact .inl ⟨rfl, (List.cons.inj h).1.symm⟩
  | cons b before =>
      obtain ⟨rfl, htail⟩ := List.cons.inj h
      cases before with
      | nil => exact .inr ⟨rfl, (List.cons.inj htail).1.symm⟩
      | cons b' before => exact absurd (List.cons.inj htail).2 (by simp)

/-- Two passes over the process. -/
theorem advances_machine {t t' u u' : Nat} (ht : t < t') (hlt : t' - t < 0x100000000)
    (hu : u ≤ u') (hu' : u' - u < 0x100000000) : Advances [machine t u, machine t' u'] where
  elapses := List.isChain_pair.mpr (by
    constructor <;> rw [total_machine, total_machine] <;> assumption)
  forward := by
    intro before p after hsplit
    rcases pair_split hsplit with ⟨rfl, rfl⟩ | ⟨rfl, rfl⟩
    · intro _ _ _ _ _ hold
      exact absurd hold (by simp [history, lastReading])
    · intro pid hpid f hf old hold k hk
      obtain rfl : pid = 20 := List.mem_singleton.mp hpid
      rw [← Option.some.inj hf, ← Option.some.inj hold]
      exact (time_process hu hk).1
  small := by
    intro before p after hsplit k hk
    rcases pair_split hsplit with ⟨rfl, rfl⟩ | ⟨rfl, rfl⟩
    · simp [history, ServPass.grown, sumRead, machine, ServPass.reading, Counter.grown,
        lastReading, growth]
    · rw [grown_machine]
      exact Nat.lt_of_le_of_lt (time_process hu hk).2 hu'

theorem unwound_machine :
    Unwound (history [machine 1000 10]) (machine 1000 10) (machine 1400 30) where
  prev_ne := by
    rw [total_machine]
    decide
  share := by
    intro k hk
    rw [total_machine, total_machine]
    refine .inr ⟨by decide, by decide, fun pid hpid f hf old hold => ?_⟩
    obtain rfl : pid = 20 := List.mem_singleton.mp hpid
    rw [← Option.some.inj hf, ← Option.some.inj hold]
    simp only [counters, List.mem_cons, List.not_mem_nil, or_false] at hk
    rcases hk with rfl | rfl | rfl | rfl <;> rfl

/-- A process that uses twenty ticks of four hundred. -/
theorem elapsed_exact_machine : ∃ c, run [machine 1000 10] = some c ∧
    Exact (history [machine 1000 10]) (machine 1000 10) (machine 1400 30) c :=
  (elapsed_exact_iff [machine 1000 10, machine 1400 30] (by simp [readable_machine])
    (advances_machine (by decide) (by decide) (by decide) (by decide))).mpr (by
      intro before prev cur after hsplit
      rcases pair_split hsplit with ⟨rfl, rfl⟩ | ⟨rfl, rfl⟩
      · obtain ⟨rfl, -⟩ := List.cons.inj (List.cons.inj hsplit).2
        exact unwound_machine
      · exact absurd hsplit (by simp)) [] _ _ [] rfl

/-- The pass in which the total passes `2 ^ 32`. -/
theorem not_exact_wrapped : ¬ ∀ passes : List ServPass, (∀ p ∈ passes, p.Readable) →
    Advances passes → ∀ before prev cur after, passes = before ++ prev :: cur :: after →
      ∃ c, run (before ++ [prev]) = some c ∧ Exact (history (before ++ [prev])) prev cur c := by
  intro h
  have hread : ∀ p ∈ [machine 4294967000 10, machine 4294967400 30], p.Readable := by
    simp [readable_machine]
  have hadvances : Advances [machine 4294967000 10, machine 4294967400 30] :=
    advances_machine (by decide) (by decide) (by decide) (by decide)
  have hunwound := (pass_iff hread hadvances (List.nil_append _).symm).mp
    (h _ hread hadvances [] _ _ [] rfl)
  have huser := hunwound.share _ List.mem_cons_self
  rw [total_machine, total_machine] at huser
  rcases huser with hzero | ⟨hwrap, -⟩
  · rw [List.nil_append, grown_machine] at hzero
    exact absurd hzero (by decide)
  · exact absurd hwrap (by decide)

end WatchedAgent.Proofs.CpuElapsed
