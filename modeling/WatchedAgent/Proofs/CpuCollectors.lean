import Mathlib.Tactic.Ring
import WatchedAgent.Lib.Run
import WatchedAgent.Model.Shares
import WatchedAgent.Proofs.CpuFiles

/-!
# `WatchedAgent.Proofs.CpuCollectors`: the two collectors of processor time

`ServCpuCollector` and `cpu.lua` publish the same properties. They differ in what they do
with a process that shows no files, with a command name that has blanks or digits, with a
counter that went back, and with a number that does not fit into 32 bits. `Alike` says that
a pass has none of these.

* `sim_turns`: the turns of the processes keep the tables and the sums of the two equal.
* `samplesAgree_of_alike`: in a run whose passes are all alike, the samples are equal.
* `not_samplesAgree_vanished`: a process that is gone is counted by the script alone.
-/

set_option autoImplicit false

namespace WatchedAgent.Proofs.CpuCollectors

open WatchedAgent.Lib
open WatchedAgent.Lib.Counters
open WatchedAgent.Lib.Fallible
open WatchedAgent.Lib.Run
open WatchedAgent.Lib.Text
open WatchedAgent.Model
open WatchedAgent.Proofs.CpuFiles

/-! ### The passes -/

/-- What a pass finds: `/proc/stat`, distinct PIDs, and the files of the processes. -/
structure CpuPass where
  cpuStat : CpuStat
  pids : List Nat
  nodup : pids.Nodup
  sched : Nat → Option SchedFile
  stat : Nat → Option ProcStat

namespace CpuPass
variable (p : CpuPass)

def toPass : ProcPass where
  cpuStat := p.cpuStat.text
  pids := p.pids
  files := fun pid =>
    { sched := (p.sched pid).map SchedFile.text, stat := (p.stat pid).map ProcStat.text }

/-- What the pass reads of a process that shows both files. -/
def reading (pid : Nat) : Reading :=
  match p.sched pid, p.stat pid with
  | some s, some f => .ofFiles s f
  | _, _ => {}

/-- What a counter of the processes has grown in all. -/
def growths (time : Reading → Nat) (t : PidMap Nat) : Nat :=
  (p.pids.map (fun pid => growth (t pid) (time (p.reading pid)))).sum

/-- No process has a counter below its last reading. -/
def Forward {α : Type} [LE α] (count : Reading → α) (t : PidMap α) : Prop :=
  ∀ pid ∈ p.pids, ∀ old, t pid = some old → old ≤ count (p.reading pid)

end CpuPass

/-- What the two collectors do alike. Every listed process shows both files, with a plain
command name. No counter goes back, every sum fits, and time has passed since the pass before. -/
structure Alike (c : ServCpuCollector) (p : CpuPass) : Prop where
  shown : ∀ pid ∈ p.pids, ∃ s f, p.sched pid = some s ∧ p.stat pid = some f ∧ s.Plain ∧ f.Plain
  runtime : p.Forward Reading.runtime c.values
  utime : p.Forward Reading.utime c.users
  stime : p.Forward Reading.stime c.sys
  cutime : p.Forward Reading.cutime c.cusers
  cstime : p.Forward Reading.cstime c.csys
  later : c.prevTotalTime ≠ 0 → c.prevTotalTime < p.cpuStat.times.sum
  total : p.cpuStat.times.sum < 0x100000000
  cpus : 100 * p.cpuStat.cpus.length < 0x100000000
  processes : p.pids.length < 0x100000000
  threads : (p.pids.map (fun pid => (p.reading pid).threads)).sum < 0x100000000
  busy : p.growths Reading.stime c.sys + p.growths Reading.utime c.users < 0x100000000
  cusers : p.growths Reading.cutime c.cusers < 0x100000000
  csys : p.growths Reading.cstime c.csys < 0x100000000

/-! ### The simulation -/

/-- A table of the script holds the numbers of a table of the collector. -/
def Casts (u : PidMap ℚ) (t : PidMap Nat) : Prop := ∀ pid, u pid = (t pid).map Nat.cast

/-- The two collectors between two passes. -/
structure Sim (c : ServCpuCollector) (d : LuaCpu) : Prop where
  values : d.values = c.values
  users : Casts d.users c.users
  sys : Casts d.sys c.sys
  cusers : Casts d.cusers c.cusers
  csys : Casts d.csys c.csys
  prevTotalTime : d.prevTotalTime = c.prevTotalTime
  shed : d.shed = c.shed
  stat : d.stat = c.stat

/-- Their local variables at the end of a pass. -/
structure LocalsSim (l : CpuLocals) (m : LuaCpuLocals) : Prop where
  sum : m.sum = l.sum
  process : m.process = l.process
  thread : m.thread = l.thread
  totalTime : m.totalTime = l.totalTime
  cpuCount : m.cpuCount = l.cpuCount
  resUsers : m.resUsers = l.resUsers
  resSys : m.resSys = l.resSys
  resCusers : m.resCusers = l.resCusers
  resCsys : m.resCsys = l.resCsys

section Turns
variable (p : CpuPass)

/-- The collector after the turns of all processes. -/
def turns (c : ServCpuCollector × CpuLocals) : ServCpuCollector × CpuLocals :=
  p.pids.foldl (fun c pid => turn (p.reading pid) pid c) c

/-- The script after the turns of all processes. -/
def luaTurns (d : LuaCpu × LuaCpuLocals) : LuaCpu × LuaCpuLocals :=
  p.pids.foldl (fun d pid => luaTurn (p.reading pid) pid d) d

variable {p}

/-- The files of a listed process. -/
theorem Alike.files {c : ServCpuCollector} (h : Alike c p) {pid : Nat} (hpid : pid ∈ p.pids) :
    ∃ s f, s.Plain ∧ f.Plain ∧ (p.toPass.files pid).sched = some s.text ∧
      (p.toPass.files pid).stat = some f.text ∧ p.reading pid = .ofFiles s f := by
  obtain ⟨s, f, hs, hf, hsplain, hfplain⟩ := h.shown pid hpid
  refine ⟨s, f, hsplain, hfplain, ?_, ?_, ?_⟩
  · show (p.sched pid).map SchedFile.text = _
    rw [hs]
    rfl
  · show (p.stat pid).map ProcStat.text = _
    rw [hf]
    rfl
  · unfold CpuPass.reading
    rw [hs, hf]

theorem foldlM_readProcess {c₀ : ServCpuCollector} (h : Alike c₀ p)
    (c : ServCpuCollector × CpuLocals) :
    p.pids.foldlM (ServCpuCollector.readProcess p.toPass.files) c = some (turns p c) := by
  refine foldlM_of_forall fun c pid hpid => ?_
  obtain ⟨s, f, hs, hf, hsched, hstat, hreading⟩ := h.files hpid
  rw [hreading]
  exact readProcess_eq_turn hs hf hsched hstat c

theorem foldlM_readProcess_lua {c₀ : ServCpuCollector} (h : Alike c₀ p)
    (d : LuaCpu × LuaCpuLocals) :
    p.pids.foldlM (LuaCpu.readProcess p.toPass.files) d = some (luaTurns p d) := by
  refine foldlM_of_forall fun d pid hpid => ?_
  obtain ⟨s, f, hs, hf, hsched, hstat, hreading⟩ := h.files hpid
  rw [hreading]
  exact readProcess_eq_luaTurn hs hf hsched hstat d

/-- A table of the collector and its sum, after the turns. -/
theorem turns_counter {g : ServCpuCollector × CpuLocals → PidMap Nat × Nat}
    {t : Reading → Nat} (hg : ∀ r pid c, g (turn r pid c)
      = (Function.update (g c).1 pid (some (t r)),
        ServCpuCollector.grow ((g c).1 pid) (t r) (g c).2))
    {c : ServCpuCollector × CpuLocals} (hstart : (g c).2 = 0)
    (hsmall : p.growths t (g c).1 < 0x100000000) :
    g (turns p c) = (written (g c).1 p.pids (fun pid => t (p.reading pid)),
      p.growths t (g c).1) := by
  let step (s : PidMap Nat × Nat) (pid : Nat) : PidMap Nat × Nat :=
    (Function.update s.1 pid (some (t (p.reading pid))),
      ServCpuCollector.grow (s.1 pid) (t (p.reading pid)) s.2)
  have hfold : g (turns p c) = p.pids.foldl step (g c) :=
    (List.foldl_hom g fun c pid => (hg (p.reading pid) pid c).symm).symm
  have hread := foldl_readings (fun pid => t (p.reading pid)) ServCpuCollector.grow p.nodup
    (g c).1 (g c).2
  have hgrow : ∀ r, ∀ pid ∈ p.pids,
      r + growth ((g c).1 pid) (t (p.reading pid)) < 0x100000000 →
      ServCpuCollector.grow ((g c).1 pid) (t (p.reading pid)) r
        = r + growth ((g c).1 pid) (t (p.reading pid)) := by
    intro r pid _
    unfold ServCpuCollector.grow growth
    cases (g c).1 pid with
    | none => exact fun _ => rfl
    | some o =>
        intro hr
        dsimp only at hr ⊢
        split
        · exact Nat.mod_eq_of_lt hr
        · omega
  have hsum : p.pids.foldl
      (fun r pid => ServCpuCollector.grow ((g c).1 pid) (t (p.reading pid)) r) 0
      = p.growths t (g c).1 :=
    (foldl_bounded hgrow (by rw [Nat.zero_add]; exact hsmall)).trans (Nat.zero_add _)
  rw [hfold]
  refine hread.trans ?_
  rw [hstart, hsum]

/-- A table of the script and its sum, after the turns. -/
theorem luaTurns_counter {g : LuaCpu × LuaCpuLocals → PidMap ℚ × ℚ} {t : Reading → ℚ}
    (hg : ∀ r pid d, g (luaTurn r pid d)
      = (Function.update (g d).1 pid (some (t r)), grown ((g d).1 pid) (t r) (g d).2))
    {d : LuaCpu × LuaCpuLocals} (hstart : (g d).2 = 0) :
    g (luaTurns p d) = (written (g d).1 p.pids (fun pid => t (p.reading pid)),
      (p.pids.map (fun pid => growth ((g d).1 pid) (t (p.reading pid)))).sum) := by
  let step (s : PidMap ℚ × ℚ) (pid : Nat) : PidMap ℚ × ℚ :=
    (Function.update s.1 pid (some (t (p.reading pid))),
      grown (s.1 pid) (t (p.reading pid)) s.2)
  have hfold : g (luaTurns p d) = p.pids.foldl step (g d) :=
    (List.foldl_hom g fun d pid => (hg (p.reading pid) pid d).symm).symm
  have hread := foldl_readings (fun pid => t (p.reading pid)) grown p.nodup (g d).1 (g d).2
  have hgrow : ∀ r, ∀ pid ∈ p.pids, grown ((g d).1 pid) (t (p.reading pid)) r
      = r + growth ((g d).1 pid) (t (p.reading pid)) := by
    intro r pid _
    unfold grown growth
    cases (g d).1 pid with
    | none => exact (add_zero r).symm
    | some o => exact add_sub_assoc r _ o
  have hsum := foldl_exact (r := (0 : ℚ)) hgrow
  rw [hfold]
  refine hread.trans ?_
  rw [hstart, hsum, zero_add]

/-- The two agree on a counter that does not go back. -/
theorem counter_agree {time : Reading → Nat} {u : PidMap ℚ} {t : PidMap Nat} (h : Casts u t)
    (hforward : p.Forward time t) :
    Casts (written u p.pids (fun pid => (time (p.reading pid) : ℚ)))
        (written t p.pids (fun pid => time (p.reading pid))) ∧
      (p.pids.map (fun pid => growth (u pid) (time (p.reading pid) : ℚ))).sum
        = (p.growths time t : ℚ) := by
  refine ⟨fun pid => ?_, ?_⟩
  · unfold written
    split
    · rfl
    · exact h pid
  · unfold CpuPass.growths
    rw [Nat.cast_list_sum, List.map_map]
    refine congrArg List.sum (List.map_congr_left fun pid hpid => ?_)
    have hold := hforward pid hpid
    rw [h pid]
    unfold growth
    cases hpast : t pid with
    | none => simp [hpast]
    | some o => simp [hpast, Nat.cast_sub (hold o hpast)]

/-- One time of the processes, in both collectors. -/
theorem time_agree {t : Reading → Nat}
    {g : ServCpuCollector × CpuLocals → PidMap Nat × Nat}
    {l : LuaCpu × LuaCpuLocals → PidMap ℚ × ℚ}
    (hg : ∀ r pid c, g (turn r pid c) = (Function.update (g c).1 pid (some (t r)),
      ServCpuCollector.grow ((g c).1 pid) (t r) (g c).2))
    (hl : ∀ r pid d, l (luaTurn r pid d)
      = (Function.update (l d).1 pid (some (t r : ℚ)),
        grown ((l d).1 pid) (t r) (l d).2))
    {c : ServCpuCollector × CpuLocals} {d : LuaCpu × LuaCpuLocals} (hc : (g c).2 = 0)
    (hd : (l d).2 = 0) (hcasts : Casts (l d).1 (g c).1)
    (hforward : p.Forward t (g c).1)
    (hsmall : p.growths t (g c).1 < 0x100000000) :
    Casts (l (luaTurns p d)).1 (g (turns p c)).1 ∧
      (l (luaTurns p d)).2 = ((g (turns p c)).2 : ℚ) ∧
      (g (turns p c)).2 = p.growths t (g c).1 := by
  obtain ⟨htable, hsum⟩ := counter_agree hcasts hforward
  rw [turns_counter hg hc hsmall, luaTurns_counter hl hd]
  exact ⟨htable, hsum, rfl⟩

/-- The runtimes, in both collectors. -/
theorem runtime_agree {c : ServCpuCollector × CpuLocals} {d : LuaCpu × LuaCpuLocals}
    (hc : c.2.sum = 0) (hd : d.2.sum = 0) (hvalues : d.1.values = c.1.values)
    (hforward : p.Forward Reading.runtime c.1.values) :
    (luaTurns p d).1.values = (turns p c).1.values ∧ (luaTurns p d).2.sum = (turns p c).2.sum := by
  let step (s : PidMap ℚ × ℚ) (pid : Nat) : PidMap ℚ × ℚ :=
    (Function.update s.1 pid (some (p.reading pid).runtime),
      SchedFile.addRuntime (s.1 pid) (p.reading pid).runtime s.2)
  have hfold : ((turns p c).1.values, (turns p c).2.sum)
      = p.pids.foldl step (c.1.values, c.2.sum) :=
    (List.foldl_hom (fun c : ServCpuCollector × CpuLocals => (c.1.values, c.2.sum))
      fun _ _ => rfl).symm
  have hread := foldl_readings (fun pid => (p.reading pid).runtime) SchedFile.addRuntime p.nodup
    c.1.values c.2.sum
  -- A runtime that stays the same adds nothing in either collector.
  have hgrow : ∀ r, ∀ pid ∈ p.pids,
      SchedFile.addRuntime (c.1.values pid) (p.reading pid).runtime r
        = r + growth (c.1.values pid) (p.reading pid).runtime := by
    intro r pid hpid
    have hold := hforward pid hpid
    unfold SchedFile.addRuntime growth
    cases hpast : c.1.values pid with
    | none => exact (add_zero r).symm
    | some o =>
        dsimp only
        split
        · rfl
        · rename_i hnot
          rw [le_antisymm (not_lt.mp hnot) (hold o hpast), sub_self, add_zero]
  have hsum := foldl_exact (r := c.2.sum) hgrow
  have hpair := hfold.trans hread
  have hlua := luaTurns_counter (p := p) (g := fun d => (d.1.values, d.2.sum))
    (t := Reading.runtime) (fun _ _ _ => rfl) (d := d) hd
  dsimp only at hlua
  rw [hvalues] at hlua
  rw [hsum, hc, zero_add] at hpair
  have heq := hlua.trans hpair.symm
  exact ⟨congrArg Prod.fst heq, congrArg Prod.snd heq⟩

/-- A number that every process adds to, in both collectors. -/
theorem count_agree {n : Reading → Nat} {g : ServCpuCollector × CpuLocals → Nat}
    {l : LuaCpu × LuaCpuLocals → ℚ}
    (hg : ∀ r pid c, g (turn r pid c) = addUInt32 (g c) (toUInt32 (n r)))
    (hl : ∀ r pid d, l (luaTurn r pid d) = l d + n r)
    {c : ServCpuCollector × CpuLocals} {d : LuaCpu × LuaCpuLocals} (hc : g c = 0)
    (hd : l d = 0)
    (hsmall : (p.pids.map (fun pid => n (p.reading pid))).sum < 0x100000000) :
    l (luaTurns p d) = g (turns p c) := by
  have hfold : g (turns p c)
      = p.pids.foldl (fun k pid => addUInt32 k (toUInt32 (n (p.reading pid)))) (g c) :=
    (List.foldl_hom g fun c pid => (hg (p.reading pid) pid c).symm).symm
  have hluaFold : l (luaTurns p d)
      = p.pids.foldl (fun k pid => k + (n (p.reading pid) : ℚ)) (l d) :=
    (List.foldl_hom l fun d pid => (hl (p.reading pid) pid d).symm).symm
  have hadd : ∀ r, ∀ pid ∈ p.pids, r + n (p.reading pid) < 0x100000000 →
      addUInt32 r (toUInt32 (n (p.reading pid))) = r + n (p.reading pid) := by
    intro r pid _ hr
    unfold addUInt32 toUInt32
    omega
  rw [hfold, hluaFold, hc, hd, foldl_bounded hadd (by rw [Nat.zero_add]; exact hsmall),
    foldl_exact fun _ _ _ => rfl, zero_add, Nat.zero_add, Nat.cast_list_sum, List.map_map]
  rfl

/-- What the turns leave alone. -/
theorem turns_frame (c : ServCpuCollector × CpuLocals) :
    (turns p c).1.prevTotalTime = c.1.prevTotalTime ∧ (turns p c).1.shed = c.1.shed ∧
      (turns p c).1.stat = c.1.stat ∧ (turns p c).2.totalTime = c.2.totalTime ∧
      (turns p c).2.cpuCount = c.2.cpuCount := by
  have hkeep : ∀ {α : Type} (g : ServCpuCollector × CpuLocals → α),
      (∀ r pid c, g (turn r pid c) = g c) → g (turns p c) = g c := by
    intro α g hg
    have hfold : g (turns p c) = p.pids.foldl (fun x _ => x) (g c) :=
      (List.foldl_hom g fun c pid => (hg (p.reading pid) pid c).symm).symm
    rw [hfold, List.foldl_fixed]
  exact ⟨hkeep (fun c => c.1.prevTotalTime) fun _ _ _ => rfl,
    hkeep (fun c => c.1.shed) fun _ _ _ => rfl, hkeep (fun c => c.1.stat) fun _ _ _ => rfl,
    hkeep (fun c => c.2.totalTime) fun _ _ _ => rfl,
    hkeep (fun c => c.2.cpuCount) fun _ _ _ => rfl⟩

theorem luaTurns_frame (d : LuaCpu × LuaCpuLocals) :
    (luaTurns p d).1.prevTotalTime = d.1.prevTotalTime ∧ (luaTurns p d).1.shed = d.1.shed ∧
      (luaTurns p d).1.stat = d.1.stat ∧ (luaTurns p d).2.totalTime = d.2.totalTime ∧
      (luaTurns p d).2.cpuCount = d.2.cpuCount := by
  have hkeep : ∀ {α : Type} (g : LuaCpu × LuaCpuLocals → α),
      (∀ r pid d, g (luaTurn r pid d) = g d) → g (luaTurns p d) = g d := by
    intro α g hg
    have hfold : g (luaTurns p d) = p.pids.foldl (fun x _ => x) (g d) :=
      (List.foldl_hom g fun d pid => (hg (p.reading pid) pid d).symm).symm
    rw [hfold, List.foldl_fixed]
  exact ⟨hkeep (fun d => d.1.prevTotalTime) fun _ _ _ => rfl,
    hkeep (fun d => d.1.shed) fun _ _ _ => rfl, hkeep (fun d => d.1.stat) fun _ _ _ => rfl,
    hkeep (fun d => d.2.totalTime) fun _ _ _ => rfl,
    hkeep (fun d => d.2.cpuCount) fun _ _ _ => rfl⟩

/-- The local variables after `/proc/stat`. -/
def CpuPass.start (p : CpuPass) : CpuLocals where
  totalTime := p.cpuStat.times.sum
  cpuCount := if p.cpuStat.cpus.length = 0 then 1 else p.cpuStat.cpus.length

def CpuPass.luaStart (p : CpuPass) : LuaCpuLocals where
  totalTime := p.start.totalTime
  cpuCount := p.start.cpuCount

/-- The turns of an alike pass keep the simulation. -/
theorem sim_turns {c : ServCpuCollector} {d : LuaCpu} (hsim : Sim c d) (h : Alike c p) :
    let c' := turns p (c, p.start)
    let d' := luaTurns p (d, p.luaStart)
    Sim c'.1 d'.1 ∧ LocalsSim c'.2 d'.2 ∧ c'.2.resSys + c'.2.resUsers < 0x100000000 := by
  intro c' d'
  have hbusy := h.busy
  obtain ⟨hvalues, hsum⟩ := runtime_agree (c := (c, p.start)) (d := (d, p.luaStart)) rfl rfl
    hsim.values h.runtime
  obtain ⟨husers, hresUsers, huserSum⟩ := time_agree (p := p) (t := Reading.utime)
    (g := fun c => (c.1.users, c.2.resUsers)) (l := fun d => (d.1.users, d.2.resUsers))
    (fun _ _ _ => rfl) (fun _ _ _ => rfl) (c := (c, p.start)) (d := (d, p.luaStart)) rfl rfl
    hsim.users h.utime (by dsimp only; omega)
  obtain ⟨hsys, hresSys, hsysSum⟩ := time_agree (p := p) (t := Reading.stime)
    (g := fun c => (c.1.sys, c.2.resSys)) (l := fun d => (d.1.sys, d.2.resSys))
    (fun _ _ _ => rfl) (fun _ _ _ => rfl) (c := (c, p.start)) (d := (d, p.luaStart)) rfl rfl
    hsim.sys h.stime (by dsimp only; omega)
  obtain ⟨hcusers, hresCusers, -⟩ := time_agree (p := p) (t := Reading.cutime)
    (g := fun c => (c.1.cusers, c.2.resCusers)) (l := fun d => (d.1.cusers, d.2.resCusers))
    (fun _ _ _ => rfl) (fun _ _ _ => rfl) (c := (c, p.start)) (d := (d, p.luaStart)) rfl rfl
    hsim.cusers h.cutime h.cusers
  obtain ⟨hcsys, hresCsys, -⟩ := time_agree (p := p) (t := Reading.cstime)
    (g := fun c => (c.1.csys, c.2.resCsys)) (l := fun d => (d.1.csys, d.2.resCsys))
    (fun _ _ _ => rfl) (fun _ _ _ => rfl) (c := (c, p.start)) (d := (d, p.luaStart)) rfl rfl
    hsim.csys h.cstime h.csys
  have hprocess : d'.2.process = c'.2.process :=
    count_agree (n := fun _ => 1) (g := fun c => c.2.process) (l := fun d => d.2.process)
      (fun _ _ _ => rfl) (fun _ _ _ => by simp [luaTurn]) (c := (c, p.start))
      (d := (d, p.luaStart)) rfl rfl (by simpa using h.processes)
  have hthread : d'.2.thread = c'.2.thread :=
    count_agree (n := Reading.threads) (g := fun c => c.2.thread) (l := fun d => d.2.thread)
      (fun _ _ _ => rfl) (fun _ _ _ => rfl) (c := (c, p.start)) (d := (d, p.luaStart)) rfl rfl
      h.threads
  -- The rest is not touched.
  obtain ⟨hprev, hshed, hstat, htotal, hcpus⟩ := turns_frame (p := p) (c, p.start)
  obtain ⟨hprev', hshed', hstat', htotal', hcpus'⟩ := luaTurns_frame (p := p) (d, p.luaStart)
  refine ⟨⟨hvalues, husers, hsys, hcusers, hcsys, ?_, ?_, ?_⟩,
    ⟨hsum, hprocess, hthread, ?_, ?_, hresUsers, hresSys, hresCusers, hresCsys⟩, ?_⟩
  · rw [hprev', hprev, hsim.prevTotalTime]
  · rw [hshed', hshed, hsim.shed]
  · rw [hstat', hstat, hsim.stat]
  · rw [htotal', htotal, CpuPass.luaStart]
  · rw [hcpus', hcpus, CpuPass.luaStart]
  · dsimp only at hsysSum huserSum
    rw [hsysSum, huserSum]
    exact hbusy

end Turns

/-! ### A pass -/

/-- The properties of the two ressources. -/
def shedProperties : List String := ["exec_runtime", "process", "thread"]

def statProperties : List String := ["user", "system", "pct", "cuser", "csystem"]

/-- The newest samples of the collector have all properties, and their values are numbers. -/
structure Sampled (c : ServCpuCollector) : Prop where
  shed : ∀ name ∈ shedProperties, ∃ q, c.shed.lookup name = some q
  stat : ∀ name ∈ statProperties, ∃ q, c.stat.lookup name = some (some q)

/-- The samples of a pass in which time has passed. -/
theorem sampled_publish (c : ServCpuCollector) {l : CpuLocals}
    (h : subUInt64 l.totalTime c.prevTotalTime ≠ 0) : Sampled (c.publish l) := by
  constructor
  · unfold ServCpuCollector.publish
    simp [shedProperties, MembersOf.lookup_setProperty]
  · have hquotient := quotient_of_ne ((mulUInt32 100 l.cpuCount : Nat) : ℚ)
      (Nat.cast_ne_zero.mpr h)
    have hshares := ServCpuCollector.lookup_publish_eq c l
    unfold ServCpuCollector.shares at hshares
    rw [hquotient] at hshares
    simp only [List.forall_mem_cons, Option.map_some] at hshares
    obtain ⟨huser, hsystem, hpct, hcuser, hcsystem, -⟩ := hshares
    simp only [statProperties, List.forall_mem_cons]
    exact ⟨⟨_, huser⟩, ⟨_, hsystem⟩, ⟨_, hpct⟩, ⟨_, hcuser⟩, ⟨_, hcsystem⟩,
      fun _ h => absurd h List.not_mem_nil⟩

section Collect
variable {p : CpuPass} {c : ServCpuCollector} {d : LuaCpu}

/-- Both divide by the time that has passed, and get numbers. -/
theorem quotients_eq (x n : ℚ) {d : ℚ} (hd : d ≠ 0) :
    (quotient (100 * n) d).map (x * ·) = some (x * 100 * n / d) ∧
      quotient (x * 100 * n) d = some (x * 100 * n / d) := by
  rw [quotient_of_ne _ hd, quotient_of_ne _ hd, Option.map_some]
  exact ⟨congrArg some (by ring), rfl⟩

/-- The samples are equal where the sums are. -/
theorem sim_publish (hsim : Sim c d) {l : CpuLocals} {m : LuaCpuLocals} (hlocals : LocalsSim l m)
    (hcpus : 100 * l.cpuCount < 0x100000000) (hlater : c.prevTotalTime < l.totalTime)
    (htotal : l.totalTime < 0x100000000) (hbusy : l.resSys + l.resUsers < 0x100000000) :
    Sim (c.publish l) (d.publish m) := by
  have hn : (100 * l.cpuCount) % 0x100000000 = 100 * l.cpuCount := Nat.mod_eq_of_lt hcpus
  have hd : (subUInt64 l.totalTime c.prevTotalTime : ℚ) = m.totalTime - d.prevTotalTime := by
    have hsub : subUInt64 l.totalTime c.prevTotalTime = l.totalTime - c.prevTotalTime := by
      unfold subUInt64
      omega
    rw [hsub, hlocals.totalTime, hsim.prevTotalTime, Nat.cast_sub hlater.le]
  have hne : m.totalTime - d.prevTotalTime ≠ 0 := by
    rw [hlocals.totalTime, hsim.prevTotalTime]
    exact sub_ne_zero.mpr (Nat.cast_lt.mpr hlater).ne'
  have hpct : ((addUInt32 l.resSys l.resUsers : Nat) : ℚ) = m.resSys + m.resUsers := by
    rw [addUInt32, Nat.mod_eq_of_lt hbusy, hlocals.resSys, hlocals.resUsers, Nat.cast_add]
  have hcount : ((100 * l.cpuCount : Nat) : ℚ) = 100 * m.cpuCount := by
    rw [hlocals.cpuCount, Nat.cast_mul, Nat.cast_ofNat]
  refine ⟨hsim.values, hsim.users, hsim.sys, hsim.cusers, hsim.csys, hsim.prevTotalTime, ?_, ?_⟩
  · unfold LuaCpu.publish ServCpuCollector.publish
    dsimp only
    rw [hsim.shed, hlocals.sum, hlocals.process, hlocals.thread]
  · unfold LuaCpu.publish ServCpuCollector.publish
    dsimp only
    rw [hn, hd, hcount, hpct, hsim.stat, ← hlocals.resUsers, ← hlocals.resSys,
      ← hlocals.resCusers, ← hlocals.resCsys]
    simp only [(quotients_eq _ _ hne).1, (quotients_eq _ _ hne).2]

/-- The end of a pass of the collector. -/
def finish (c : ServCpuCollector × CpuLocals) : ServCpuCollector × Bool :=
  if c.1.prevTotalTime ≠ 0 then
    ({ c.1.publish c.2 with prevTotalTime := c.2.totalTime }, true)
  else ({ c.1 with prevTotalTime := c.2.totalTime }, false)

/-- The end of a pass of the script. -/
def luaFinish (d : LuaCpu × LuaCpuLocals) : LuaCpu × Bool :=
  if d.1.prevTotalTime ≠ 0 then
    ({ d.1.publish d.2 with prevTotalTime := d.2.totalTime }, true)
  else ({ d.1 with prevTotalTime := d.2.totalTime }, false)

theorem collect_eq (h : Alike c p) : c.collect p.toPass = some (finish (turns p (c, p.start))) := by
  have hcpus := h.cpus
  have hread : (linesOf p.toPass.cpuStat).foldl ServCpuCollector.readCpuLine {} = _ :=
    p.cpuStat.foldl_readCpuLine h.total (by omega)
  have hstart : (if p.cpuStat.cpus.length = 0
      then ({ totalTime := p.cpuStat.times.sum, cpuCount := 1 } : CpuLocals)
      else { totalTime := p.cpuStat.times.sum, cpuCount := p.cpuStat.cpus.length }) = p.start := by
    unfold CpuPass.start
    split <;> rfl
  unfold ServCpuCollector.collect
  rw [hread]
  dsimp only
  rw [hstart]
  show (p.pids.foldlM (ServCpuCollector.readProcess p.toPass.files) (c, p.start)).bind _ = _
  rw [foldlM_readProcess h, Option.bind_some]
  unfold finish
  split <;> rfl

theorem collect_lua_eq (h : Alike c p) :
    d.collect p.toPass = some (luaFinish (luaTurns p (d, p.luaStart))) := by
  have hread : (linesOf p.toPass.cpuStat).foldlM LuaCpu.readCpuLine {} = _ :=
    p.cpuStat.foldlM_readCpuLine
  have hstart : (if (p.cpuStat.cpus.length : ℚ) = 0
      then ({ totalTime := p.cpuStat.times.sum, cpuCount := 1 } : LuaCpuLocals)
      else { totalTime := p.cpuStat.times.sum, cpuCount := p.cpuStat.cpus.length })
      = p.luaStart := by
    unfold CpuPass.luaStart CpuPass.start
    by_cases hzero : p.cpuStat.cpus.length = 0
    · rw [if_pos (Nat.cast_eq_zero.mpr hzero), if_pos hzero, Nat.cast_one]
    · rw [if_neg (Nat.cast_ne_zero.mpr hzero), if_neg hzero]
  unfold LuaCpu.collect
  rw [hread, Option.bind_eq_bind, Option.bind_some]
  dsimp only
  rw [hstart]
  show (p.pids.foldlM (LuaCpu.readProcess p.toPass.files) (d, p.luaStart)).bind _ = _
  rw [foldlM_readProcess_lua h, Option.bind_some]
  unfold luaFinish
  split <;> rfl

/-- A pass that both do alike keeps the simulation, and both make a sample or none. -/
theorem sim_collect (hsim : Sim c d) (h : Alike c p) :
    ∃ c' d' b, c.collect p.toPass = some (c', b) ∧ d.collect p.toPass = some (d', b) ∧
      Sim c' d' ∧ (b = true → Sampled c') := by
  obtain ⟨hturns, hlocals, hbusy⟩ := sim_turns hsim h
  obtain ⟨hprev, -, -, htotal, hcount⟩ := turns_frame (p := p) (c, p.start)
  have hprev' := hturns.prevTotalTime
  rw [collect_eq h, collect_lua_eq h]
  unfold finish luaFinish
  by_cases hfirst : (turns p (c, p.start)).1.prevTotalTime = 0
  · -- There is nothing to compare the first pass with.
    have hfirst' : (luaTurns p (d, p.luaStart)).1.prevTotalTime = 0 := by
      rw [hprev', hfirst, Nat.cast_zero]
    rw [if_neg (not_not_intro hfirst), if_neg (not_not_intro hfirst')]
    exact ⟨_, _, _, rfl, rfl, ⟨hturns.values, hturns.users, hturns.sys, hturns.cusers,
      hturns.csys, hlocals.totalTime, hturns.shed, hturns.stat⟩, fun h => absurd h (by decide)⟩
  · have hfirst' : (luaTurns p (d, p.luaStart)).1.prevTotalTime ≠ 0 := by
      rw [hprev']
      exact Nat.cast_ne_zero.mpr hfirst
    have hcpus : 100 * (turns p (c, p.start)).2.cpuCount < 0x100000000 := by
      have hcpus := h.cpus
      rw [hcount]
      unfold CpuPass.start
      dsimp only
      split <;> omega
    have hlater : (turns p (c, p.start)).1.prevTotalTime < (turns p (c, p.start)).2.totalTime := by
      rw [hprev] at hfirst ⊢
      rw [htotal]
      exact h.later hfirst
    have hsmall : (turns p (c, p.start)).2.totalTime < 0x100000000 := by
      rw [htotal]
      exact h.total
    have hpublish := sim_publish hturns hlocals hcpus hlater hsmall hbusy
    have helapsed : subUInt64 (turns p (c, p.start)).2.totalTime
        (turns p (c, p.start)).1.prevTotalTime ≠ 0 := by
      unfold subUInt64
      omega
    have hsampled := sampled_publish (turns p (c, p.start)).1 helapsed
    rw [if_pos hfirst, if_pos hfirst']
    exact ⟨_, _, _, rfl, rfl, ⟨hpublish.values, hpublish.users, hpublish.sys, hpublish.cusers,
      hpublish.csys, hlocals.totalTime, hpublish.shed, hpublish.stat⟩,
      fun _ => ⟨hsampled.shed, hsampled.stat⟩⟩

end Collect

/-! ### Runs -/

/-- The two collectors. -/
structure World where
  cpu : ServCpuCollector := {}
  lua : LuaCpu := {}

/-- Both collectors make a pass. -/
def step (w : World) (p : CpuPass) : World where
  cpu := ((w.cpu.collect p.toPass).map Prod.fst).getD w.cpu
  lua := ((w.lua.collect p.toPass).map Prod.fst).getD w.lua

/-- Both collectors make a sample in the pass, with the same number under each property, or none
does. -/
def SamplesAgree (w : World) (p : CpuPass) : Prop :=
  ∃ c d b, w.cpu.collect p.toPass = some (c, b) ∧ w.lua.collect p.toPass = some (d, b) ∧
    (b = true →
      (∀ name ∈ shedProperties, ∃ q, c.shed.lookup name = some q ∧ d.shed.lookup name = some q) ∧
      ∀ name ∈ statProperties, ∃ q, c.stat.lookup name = some (some q) ∧
        d.stat.lookup name = some (some q))

theorem sim_start : Sim {} {} :=
  ⟨rfl, fun _ => rfl, fun _ => rfl, fun _ => rfl, fun _ => rfl, rfl, rfl, rfl⟩

theorem sim_step {w : World} {p : CpuPass} (hsim : Sim w.cpu w.lua) (h : Alike w.cpu p) :
    Sim (step w p).cpu (step w p).lua := by
  obtain ⟨c, d, b, hc, hd, hsim', -⟩ := sim_collect hsim h
  unfold step
  dsimp only
  rw [hc, hd]
  exact hsim'

theorem samplesAgree_of_sim {w : World} {p : CpuPass} (hsim : Sim w.cpu w.lua)
    (h : Alike w.cpu p) : SamplesAgree w p := by
  obtain ⟨c, d, b, hc, hd, hsim', hsampled⟩ := sim_collect hsim h
  refine ⟨c, d, b, hc, hd, fun hb => ⟨fun name hname => ?_, fun name hname => ?_⟩⟩
  · obtain ⟨q, hq⟩ := (hsampled hb).shed name hname
    exact ⟨q, hq, by rw [hsim'.shed, hq]⟩
  · obtain ⟨q, hq⟩ := (hsampled hb).stat name hname
    exact ⟨q, hq, by rw [hsim'.stat, hq]⟩

/-- In a run whose passes are all alike, the samples agree. -/
theorem samplesAgree_of_alike (as : List CpuPass)
    (h : Meets step (fun w p => Alike w.cpu p) {} as) : Meets step SamplesAgree {} as :=
  meets_of_meets (I := fun w : World => Sim w.cpu w.lua)
    (fun _ _ hsim halike => samplesAgree_of_sim hsim halike)
    (fun _ _ hsim halike => sim_step hsim halike) {} as sim_start h

/-! ### Two runs -/

/-- A pass that finds one process with two threads. -/
def busyPass (total utime : Nat) : CpuPass where
  cpuStat := ⟨[total], [(0, [total])], [("ctxt", [7])], by decide⟩
  pids := [10]
  nodup := List.nodup_cons.mpr ⟨List.not_mem_nil, List.nodup_nil⟩
  sched := fun _ => some
    { comm := "httpd", pid := 10, threads := 2, before := ["-----"], ms := 3, ns := 5000,
      after := ["nr_switches : 4"], comm_length := by decide,
      before_other := fun _ h => List.mem_singleton.mp h ▸
        ⟨by decide, by decide, by decide, by decide⟩,
      after_other := fun _ h => List.mem_singleton.mp h ▸
        ⟨by decide, by decide, by decide, by decide⟩ }
  stat := fun _ => some
    { pid := 10, comm := "httpd", state := 'S', before := [1, 10, 10, 0, -1, 64, 90, 0, 0, 0],
      utime := utime, stime := 6, cutime := 0, cstime := 0, after := [20, 0],
      comm_line := by decide, state_alpha := by decide, length_before := by decide }

theorem shown_busyPass {total utime : Nat} (h : utime < 0x100000000) :
    ∀ pid ∈ (busyPass total utime).pids, ∃ s f, (busyPass total utime).sched pid = some s ∧
      (busyPass total utime).stat pid = some f ∧ s.Plain ∧ f.Plain := by
  have hblank : ¬ HasBlank "httpd" := by decide
  have hdigit : ∀ c ∈ "httpd".toList, isDigit c = false := by decide
  exact fun _ _ => ⟨_, _, rfl, rfl, ⟨⟨by decide, by decide⟩, by decide⟩,
    ⟨hblank, hdigit, h, Nat.lt_of_succ_lt (by decide : 7 < 0x100000000), Nat.succ_pos _,
      Nat.succ_pos _⟩⟩

/-- The first pass has nothing to compare with. -/
theorem alike_first : Alike {} (busyPass 100 5) where
  shown := shown_busyPass (by decide)
  runtime := fun _ _ _ h => absurd h (by simp)
  utime := fun _ _ _ h => absurd h (by simp)
  stime := fun _ _ _ h => absurd h (by simp)
  cutime := fun _ _ _ h => absurd h (by simp)
  cstime := fun _ _ _ h => absurd h (by simp)
  later := by decide
  total := by decide
  cpus := by decide
  processes := by decide
  threads := by decide
  busy := by decide
  cusers := by decide
  csys := by decide

/-- For one process there is one comparison. -/
theorem forward_of_single {α : Type} [LE α] {p : CpuPass} {n : Nat} {count : Reading → α}
    {t : PidMap α} {a : α} (hpids : p.pids = [n]) (ht : t n = some a)
    (h : a ≤ count (p.reading n)) : p.Forward count t := by
  intro q hq old hold
  rw [hpids] at hq
  obtain rfl : q = n := List.mem_singleton.mp hq
  obtain rfl : a = old := Option.some.inj (ht.symm.trans hold)
  exact h

/-- In the second pass the process has used some more time. -/
theorem alike_second : Alike (step {} (busyPass 100 5)).cpu (busyPass 200 9) := by
  have hstep : (step {} (busyPass 100 5)).cpu
      = (finish (turns (busyPass 100 5) ({}, (busyPass 100 5).start))).1 := by
    unfold step
    rw [collect_eq alike_first]
    rfl
  rw [hstep]
  exact {
    shown := shown_busyPass (by decide)
    runtime := forward_of_single (n := 10) rfl rfl (le_refl _)
    utime := forward_of_single (n := 10) (a := 5) rfl rfl (by decide)
    stime := forward_of_single (n := 10) (a := 6) rfl rfl (by decide)
    cutime := forward_of_single (n := 10) (a := 0) rfl rfl (by decide)
    cstime := forward_of_single (n := 10) (a := 0) rfl rfl (by decide)
    later := by decide
    total := by decide
    cpus := by decide
    processes := by decide
    threads := by decide
    busy := by decide
    cusers := by decide
    csys := by decide }

theorem samplesAgree_busy : Meets step SamplesAgree {} [busyPass 100 5, busyPass 200 9] :=
  samplesAgree_of_alike _ ⟨alike_first, alike_second, trivial⟩

/-- A pass that finds a process gone. -/
def gonePass (total : Nat) : CpuPass where
  cpuStat := ⟨[total], [], [], by decide⟩
  pids := [10]
  nodup := List.nodup_cons.mpr ⟨List.not_mem_nil, List.nodup_nil⟩
  sched := fun _ => none
  stat := fun _ => none

/-- The collector counts no process, and the script counts one. -/
theorem not_samplesAgree_vanished :
    ¬ ∀ as : List CpuPass, Meets step SamplesAgree {} as := by
  intro h
  have hagree : SamplesAgree (step {} (gonePass 1)) (gonePass 2) := (h [gonePass 1, gonePass 2]).2.1
  have hcount : ((step {} (gonePass 1)).cpu.collect (gonePass 2).toPass).map
      (fun r => (r.1.shed.lookup "process", r.2)) = some (some 0, true) := by decide +kernel
  have hluaCount : ((step {} (gonePass 1)).lua.collect (gonePass 2).toPass).map
      (fun r => r.1.shed.lookup "process") = some (some 1) := by decide +kernel
  obtain ⟨c, d, b, hc, hd, hequal⟩ := hagree
  rw [hc] at hcount
  rw [hd] at hluaCount
  obtain ⟨hzero, rfl⟩ := Prod.mk.inj (Option.some.inj hcount)
  have hone : d.shed.lookup "process" = some 1 := Option.some.inj hluaCount
  obtain ⟨q, hcq, hdq⟩ := (hequal rfl).1 "process" (by decide)
  have hq0 : (0 : ℚ) = q := Option.some.inj (hzero.symm.trans hcq)
  have hq1 : (1 : ℚ) = q := Option.some.inj (hone.symm.trans hdq)
  exact absurd (hq0.trans hq1.symm) (by decide)

end WatchedAgent.Proofs.CpuCollectors
