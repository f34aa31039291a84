import Mathlib.Algebra.BigOperators.Ring.Finset
import WatchedAgent.Lib.Counters
import WatchedAgent.Lib.Fallible
import WatchedAgent.Model.LuaCollectors
import WatchedAgent.Proofs.StatFields

/-!
# `WatchedAgent.Proofs.CpuFiles`: the files of the processor collectors

`ServCpuCollector` and `cpu.lua` read `/proc/stat`, and `sched` and `stat` of each process.
The first splits the lines at white space, the script looks for runs of digits and letters.
The files are given by what the kernel writes into them, and for each file there are two
lemmas, one for each reader.

The name of a process stands in two of the files. Its white space adds words to a line, and
its digits add numbers, so the lemmas ask for a name without either.
-/

set_option autoImplicit false

namespace WatchedAgent.Proofs.CpuFiles

open WatchedAgent.Lib
open WatchedAgent.Lib.Counters
open WatchedAgent.Lib.Fallible
open WatchedAgent.Lib.Text
open WatchedAgent.Model
open WatchedAgent.Proofs.StatFields

/-! ### `/proc/stat` -/

/-- The names of the lines that are not about processors. -/
def statNames : List String :=
  ["intr", "ctxt", "btime", "processes", "procs_running", "procs_blocked", "softirq", "page",
    "swap"]

/-- `/proc/stat`: the times of all processors, the number and the times of each, and the other
lines. -/
structure CpuStat where
  times : List Nat
  cpus : List (Nat × List Nat)
  others : List (String × List Nat)
  others_name : ∀ o ∈ others, o.1 ∈ statNames

/-- A row of numbers. -/
def row (ns : List Nat) : String := fields (ns.map toString)

namespace CpuStat
variable (s : CpuStat)

/-- The first line, with two blanks after its name. -/
def timesLine (ns : List Nat) : String := "cpu " ++ row ns

def cpuLine (c : Nat × List Nat) : String := "cpu" ++ toString c.1 ++ row c.2

def otherLine (o : String × List Nat) : String := o.1 ++ row o.2

/-- The text of the file. -/
def text : String :=
  fileOf (timesLine s.times :: (s.cpus.map cpuLine ++ s.others.map otherLine))

end CpuStat

theorem words_row (ns : List Nat) : ∀ w ∈ ns.map (toString : Nat → String), IsWord w :=
  List.forall_mem_map.mpr fun n _ => isWord_nat n

/-- The characters of a row are blanks and digits. -/
theorem all_row {p : Char → Prop} (hblank : p ' ') (hdigit : ∀ d < 10, p (Nat.digitChar d))
    (ns : List Nat) : ∀ c ∈ (row ns).toList, p c := by
  unfold row fields
  rw [String.toList_ofList]
  intro c hc
  obtain ⟨w, hw, hc⟩ := List.mem_flatMap.mp hc
  obtain ⟨n, -, rfl⟩ := List.mem_map.mp hw
  rcases List.mem_cons.mp hc with rfl | hc
  · exact hblank
  · rw [toList_nat] at hc
    exact all_toDigits isBase_ten hdigit c hc

/-- A row starts with a blank, if it is not empty. -/
theorem head_row {p : Char → Prop} (hblank : p ' ') (ns : List Nat) :
    ∀ c ∈ (row ns).toList.head?, p c := by
  cases ns with
  | nil => simp [row, fields]
  | cons n ns =>
      intro c hc
      have hrow : (row (n :: ns)).toList = ' ' :: ((toString n).toList ++ (row ns).toList) := by
        simp [row, fields]
      rw [hrow] at hc
      obtain rfl : ' ' = c := Option.some.inj hc
      exact hblank

theorem compile_name : Lua.compile "(%a+%d*)" = ⟨[], [⟨Lua.isAlpha, .plus⟩, ⟨isDigit, .star⟩]⟩ :=
  rfl

section CpuLines

/-- The collector adds up the times. -/
theorem readCpuLine_times (l : CpuLocals) (ns : List Nat) :
    ServCpuCollector.readCpuLine l (CpuStat.timesLine ns)
      = { l with
          totalTime := ns.foldl (fun t (n : Nat) => addUInt32 t (toUInt32 n)) l.totalTime } := by
  have hwords : tokens (CpuStat.timesLine ns) = "cpu" :: ns.map toString :=
    tokens_fields (a := "cpu ") (String.toList_append) (words_row ns)
  unfold ServCpuCollector.readCpuLine
  rw [hwords]
  dsimp only
  rw [if_pos rfl, List.foldl_map]
  simp only [atoi_nat]

/-- A line of a processor is counted. -/
theorem readCpuLine_cpu (l : CpuLocals) (c : Nat × List Nat) :
    ServCpuCollector.readCpuLine l (CpuStat.cpuLine c)
      = { l with cpuCount := addUInt32 l.cpuCount 1 } := by
  have hname : ("cpu" ++ toString c.1).toList = 'c' :: 'p' :: 'u' :: Nat.toDigits 10 c.1 := by
    rw [String.toList_append, toList_nat]
    rfl
  have hword : IsWord ("cpu" ++ toString c.1) := by
    refine ⟨fun h => List.cons_ne_nil _ _ (hname.symm.trans (by rw [h]; rfl)), ?_⟩
    rw [hname]
    have hdigit : ∀ d ∈ Nat.toDigits 10 c.1, isSpace d = false :=
      all_toDigits isBase_ten (by decide)
    simp only [List.forall_mem_cons]
    exact ⟨by decide, by decide, by decide, hdigit⟩
  have hwords : tokens (CpuStat.cpuLine c) = ("cpu" ++ toString c.1) :: c.2.map toString := by
    have hline := tokens_fields (a := "cpu" ++ toString c.1) (s := CpuStat.cpuLine c)
      String.toList_append (words_row c.2)
    rw [tokens_of_isWord hword] at hline
    exact hline
  have hne : "cpu" ++ toString c.1 ≠ "cpu" := by
    intro h
    rw [h] at hname
    obtain ⟨d, ds, hds⟩ := exists_toDigits 10 c.1
    rw [hds] at hname
    exact absurd (congrArg List.length hname) (by simp)
  unfold ServCpuCollector.readCpuLine
  rw [hwords]
  dsimp only
  rw [if_neg hne, if_pos (by rw [hname]; rfl)]

/-- The other lines are skipped. -/
theorem readCpuLine_other (l : CpuLocals) {o : String × List Nat} (ho : o.1 ∈ statNames) :
    ServCpuCollector.readCpuLine l (CpuStat.otherLine o) = l := by
  have hnames : ∀ name ∈ statNames, tokens name = [name] ∧ name ≠ "cpu" ∧
      name.toList.take 3 ≠ "cpu".toList := by decide
  obtain ⟨htokens, hne, htake⟩ := hnames o.1 ho
  have hwords : tokens (CpuStat.otherLine o) = o.1 :: o.2.map toString := by
    have hline := tokens_fields (a := o.1) (s := CpuStat.otherLine o) String.toList_append
      (words_row o.2)
    rw [htokens] at hline
    exact hline
  unfold ServCpuCollector.readCpuLine
  rw [hwords]
  dsimp only
  rw [if_neg hne, if_neg htake]

/-- The runs of digits of a row are its numbers. -/
theorem gmatch_times (ns : List Nat) :
    Lua.gmatch "%d+" (CpuStat.timesLine ns) = ns.map toString := by
  have hrow : (row ns).toList = (fields ((ns.map Int.ofNat).map toString)).toList ++ [] := by
    rw [List.map_map, List.append_nil]
    rfl
  have hruns : Lua.digitRuns (CpuStat.timesLine ns).toList = ns.map (Nat.toDigits 10) := by
    unfold CpuStat.timesLine
    rw [String.toList_append, Lua.digitRuns_skip (by decide), hrow,
      Lua.digitRuns_fields _ (by simp), List.map_map, Lua.digitRuns_nil, List.append_nil]
    rfl
  rw [Lua.gmatch_digits, hruns, List.map_map]
  refine List.map_congr_left fun n _ => ?_
  rw [Function.comp_apply, ← toList_nat, String.ofList_toList]

/-- The script adds up the times. -/
theorem readCpuLine_lua_times (l : LuaCpuLocals) (ns : List Nat) :
    LuaCpu.readCpuLine l (CpuStat.timesLine ns)
      = some { l with totalTime := l.totalTime + (ns.map (Nat.cast : Nat → ℚ)).sum } := by
  have hname : Lua.luaMatch "(%a+%d*)" (CpuStat.timesLine ns) = some "cpu" := by
    have hline : (CpuStat.timesLine ns).toList
        = [] ++ (['c', 'p', 'u'] ++ ' ' :: (row ns).toList) := by
      rw [CpuStat.timesLine, String.toList_append]
      rfl
    have hfirst := Lua.First.star (p := isDigit) (l := []) (u := []) (v := ' ' :: (row ns).toList)
      (by simp) (by simp; decide) (Lua.first_nil _)
    have hmatch := Lua.matchIn_run (p := Lua.isAlpha) (a := []) (u := ['c', 'p', 'u']) (by simp)
      (by simp) (by decide) (by simp; decide) hfirst
    unfold Lua.luaMatch
    rw [compile_name, hline]
    exact congrArg (Option.map String.ofList) hmatch
  have hfold : (ns.map (toString : Nat → String)).foldlM
      (fun (t : ℚ) part => (tonumber part).map (t + ·)) l.totalTime
      = some (l.totalTime + (ns.map (Nat.cast : Nat → ℚ)).sum) := by
    rw [List.foldlM_map, foldlM_of_forall (g := fun (t : ℚ) (n : Nat) => t + n) fun t n _ => by
      rw [tonumber_toDigits (toList_nat n)]
      rfl]
    rw [foldl_exact (g := fun (n : Nat) => (n : ℚ)) fun _ _ _ => rfl]
  unfold LuaCpu.readCpuLine
  dsimp only
  rw [if_pos hname, gmatch_times, hfold]
  rfl

theorem readCpuLine_lua_cpu (l : LuaCpuLocals) (c : Nat × List Nat) :
    LuaCpu.readCpuLine l (CpuStat.cpuLine c) = some { l with cpuCount := l.cpuCount + 1 } := by
  have hline : (CpuStat.cpuLine c).toList
      = [] ++ (['c', 'p', 'u'] ++ (Nat.toDigits 10 c.1 ++ (row c.2).toList)) := by
    rw [CpuStat.cpuLine, String.toList_append, String.toList_append, toList_nat]
    rfl
  obtain ⟨d, ds, hds⟩ := exists_toDigits 10 c.1
  have hd : Lua.isAlpha d = false :=
    all_toDigits (n := c.1) isBase_ten (p := fun c => Lua.isAlpha c = false) (by decide) d
      (by simp [hds])
  have hname : Lua.luaMatch "(%a+%d*)" (CpuStat.cpuLine c)
      = some (String.ofList (['c', 'p', 'u'] ++ Nat.toDigits 10 c.1)) := by
    have hfirst := Lua.First.star (p := isDigit) (l := []) (u := Nat.toDigits 10 c.1)
      (v := (row c.2).toList) (isDigit_toDigits c.1) (head_row (by decide) c.2) (Lua.first_nil _)
    have hmatch := Lua.matchIn_run (p := Lua.isAlpha) (a := []) (u := ['c', 'p', 'u']) (by simp)
      (by simp) (by decide) (by rw [hds]; simpa using hd) hfirst
    unfold Lua.luaMatch
    rw [compile_name, hline, hmatch, List.append_nil]
    rfl
  have hne : Lua.luaMatch "(%a+%d*)" (CpuStat.cpuLine c) ≠ some "cpu" := by
    rw [hname, hds]
    intro h
    have htext := congrArg String.toList (Option.some.inj h)
    rw [String.toList_ofList] at htext
    exact absurd (congrArg List.length htext) (by simp)
  have hword : Lua.luaMatch "(%a+)" (CpuStat.cpuLine c) = some "cpu" := by
    rw [hds] at hline
    exact Lua.luaMatch_word (a := ['c', 'p', 'u']) hline (by decide) hd
  unfold LuaCpu.readCpuLine
  rw [if_neg hne, if_pos hword]
  rfl

/-- A line with another name has no `cpu` in it. -/
theorem luaMatch_other {o : String × List Nat} (ho : o.1 ∈ statNames) (pattern : String) :
    Lua.luaMatch pattern (CpuStat.otherLine o) ≠ some "cpu" := by
  have hnames : ∀ name ∈ statNames, ¬ "cpu".toList <:+: name.toList := by decide
  intro h
  have hinfix := Lua.infix_of_luaMatch h
  rw [CpuStat.otherLine, String.toList_append] at hinfix
  refine hnames o.1 ho (infix_of_disjoint (fun c hc hrow => ?_) hinfix)
  have hchars := all_row (p := fun c => c ∉ "cpu".toList) (by decide) (by decide) o.2 c hrow
  exact hchars hc

theorem readCpuLine_lua_other (l : LuaCpuLocals) {o : String × List Nat} (ho : o.1 ∈ statNames) :
    LuaCpu.readCpuLine l (CpuStat.otherLine o) = some l := by
  unfold LuaCpu.readCpuLine
  rw [if_neg (luaMatch_other ho _), if_neg (luaMatch_other ho _)]
  rfl

end CpuLines

namespace CpuStat
variable (s : CpuStat)

theorem linesOf_text : linesOf s.text
    = timesLine s.times :: (s.cpus.map cpuLine ++ s.others.map otherLine) := by
  have hrow : ∀ ns, '\n' ∉ (row ns).toList := fun ns h =>
    all_row (p := (· ≠ '\n')) (by decide) (by decide) ns _ h rfl
  have hdigit : ∀ n, '\n' ∉ Nat.toDigits 10 n := fun n => not_mem_toDigits isBase_ten (by decide)
  have hnames : ∀ name ∈ statNames, '\n' ∉ name.toList := by decide
  refine linesOf_fileOf fun l hl => ?_
  rcases List.mem_cons.mp hl with rfl | hl
  · simp [timesLine, hrow]
  · rcases List.mem_append.mp hl with hl | hl
    · obtain ⟨c, -, rfl⟩ := List.mem_map.mp hl
      unfold cpuLine
      rw [String.toList_append, String.toList_append, toList_nat]
      simp [hrow, hdigit]
    · obtain ⟨o, ho, rfl⟩ := List.mem_map.mp hl
      simp [otherLine, hrow, hnames o.1 (s.others_name o ho)]

/-- The lines of the processors are counted. -/
theorem foldl_cpuLine (cpus : List (Nat × List Nat)) (l : CpuLocals)
    (h : l.cpuCount < 0x100000000) :
    (cpus.map cpuLine).foldl ServCpuCollector.readCpuLine l
      = { l with cpuCount := (l.cpuCount + cpus.length) % 0x100000000 } := by
  induction cpus generalizing l with
  | nil => rw [List.map_nil, List.foldl_nil, List.length_nil, Nat.add_zero, Nat.mod_eq_of_lt h]
  | cons c cpus ih =>
      have hone : addUInt32 l.cpuCount 1 < 0x100000000 := Nat.mod_lt _ (by decide)
      have hsum : (addUInt32 l.cpuCount 1 + cpus.length) % 0x100000000
          = (l.cpuCount + (cpus.length + 1)) % 0x100000000 := by
        unfold addUInt32
        omega
      rw [List.map_cons, List.foldl_cons, readCpuLine_cpu, ih _ hone, List.length_cons]
      dsimp only
      rw [hsum]

theorem foldlM_cpuLine (cpus : List (Nat × List Nat)) (l : LuaCpuLocals) :
    (cpus.map cpuLine).foldlM LuaCpu.readCpuLine l
      = some { l with cpuCount := l.cpuCount + cpus.length } := by
  induction cpus generalizing l with
  | nil => simp
  | cons c cpus ih =>
      rw [List.map_cons, foldlM_cons_some (readCpuLine_lua_cpu l c), ih]
      simp only [List.length_cons]
      push_cast
      rw [add_assoc, add_comm 1]

/-- The times are added up. -/
theorem foldl_times (ns : List Nat) {t : Nat} (h : t < 0x100000000) :
    ns.foldl (fun t (n : Nat) => addUInt32 t (toUInt32 n)) t = (t + ns.sum) % 0x100000000 := by
  have hsum := Counters.foldl_mod (l := ns) (g := id) (fun t n => by
    show addUInt32 t (toUInt32 (n : Int)) = (t + n) % 0x100000000
    unfold addUInt32 toUInt32
    omega) h
  rwa [List.map_id] at hsum

/-- What the collector reads from `/proc/stat`. -/
theorem foldl_readCpuLine_mod : (linesOf s.text).foldl ServCpuCollector.readCpuLine {}
    = { totalTime := s.times.sum % 0x100000000, cpuCount := s.cpus.length % 0x100000000 } := by
  have hothers : ∀ l, (s.others.map otherLine).foldl ServCpuCollector.readCpuLine l = l := by
    intro l
    rw [List.foldl_map, List.foldl_ext _ (fun l _ => l) _ fun l o ho =>
      readCpuLine_other l (s.others_name o ho), List.foldl_fixed]
  have hzero : ({} : CpuLocals).totalTime < 0x100000000 := by decide
  have hcount : ∀ t, ({ totalTime := t } : CpuLocals).cpuCount < 0x100000000 := fun _ =>
    Nat.succ_pos _
  rw [linesOf_text, List.foldl_cons, readCpuLine_times, foldl_times _ hzero,
    List.foldl_append, foldl_cpuLine _ _ (hcount _), hothers]
  dsimp only
  rw [Nat.zero_add, Nat.zero_add]

/-- What it reads, as long as it fits. -/
theorem foldl_readCpuLine (htimes : s.times.sum < 0x100000000)
    (hcpus : s.cpus.length < 0x100000000) :
    (linesOf s.text).foldl ServCpuCollector.readCpuLine {}
      = { totalTime := s.times.sum, cpuCount := s.cpus.length } := by
  rw [foldl_readCpuLine_mod, Nat.mod_eq_of_lt htimes, Nat.mod_eq_of_lt hcpus]

/-- What the script reads from it. -/
theorem foldlM_readCpuLine : (linesOf s.text).foldlM LuaCpu.readCpuLine {}
    = some { totalTime := s.times.sum, cpuCount := s.cpus.length } := by
  have hothers : ∀ l, (s.others.map otherLine).foldlM LuaCpu.readCpuLine l = some l := by
    intro l
    rw [List.foldlM_map]
    exact foldlM_fixed fun o ho => readCpuLine_lua_other l (s.others_name o ho)
  rw [linesOf_text, foldlM_cons_some (readCpuLine_lua_times {} s.times),
    foldlM_append_some (foldlM_cpuLine s.cpus _), hothers]
  simp [Nat.cast_list_sum]

end CpuStat

/-! ### `/proc/<pid>/sched` -/

/-- The name of the runtime in the file. -/
def runtimeName : String := "se.sum_exec_runtime"

/-- A line of the file that neither reader takes for another. -/
structure IsOther (line : String) : Prop where
  one_line : '\n' ∉ line.toList
  words : tokens line ≠ []
  runtime : ¬ runtimeName.toList <:+: line.toList
  threads : ¬ "threads".toList <:+: line.toList

/-- `/proc/<pid>/sched`: the name of the process, its PID and the number of its threads, the
runtime in milliseconds and nanoseconds, and the other lines before and after it. -/
structure SchedFile where
  comm : String
  pid : Nat
  threads : Nat
  before : List String
  ms : Nat
  ns : Nat
  after : List String
  comm_length : comm.length ≤ 15
  before_other : ∀ l ∈ before, IsOther l
  after_other : ∀ l ∈ after, IsOther l

namespace SchedFile
variable (f : SchedFile)

/-- `%s (%d, #threads: %d)`. -/
def header : String :=
  f.comm ++ " (" ++ toString f.pid ++ ", #threads: " ++ toString f.threads ++ ")"

/-- `%14Ld.%06ld`, without the blanks before it. -/
def number : String :=
  String.ofList (Nat.toDigits 10 f.ms ++ '.' :: (Nat.toDigits 10 f.ns).leftpad 6 '0')

/-- `%-45s:%14Ld.%06ld`. -/
def runtimeLine : String :=
  String.ofList (runtimeName.toList.rightpad 45 ' ' ++ ':' ::
    (List.replicate (14 - (Nat.toDigits 10 f.ms).length) ' ' ++ f.number.toList))

/-- The text of the file. -/
def text : String := fileOf (f.header :: (f.before ++ f.runtimeLine :: f.after))

/-- The number as a fraction. -/
def runtime : ℚ := decimalValue f.number.toList

end SchedFile

section SchedLines

/-- Only the runtime line has its name. -/
theorem readSchedLine_other {line : String} (h : IsOther line) (pid : Nat)
    (c : ServCpuCollector × CpuLocals) : ServCpuCollector.readSchedLine pid c line = some c := by
  have hname : (tokens line)[0]? ≠ some "se.sum_exec_runtime" := fun hword =>
    h.runtime (infix_of_mem_tokens (List.mem_of_getElem? hword))
  have hthreads : (tokens line)[2]? ≠ some "#threads:" := fun hword =>
    h.threads ((show "threads".toList <:+: "#threads:".toList by decide).trans
      (infix_of_mem_tokens (List.mem_of_getElem? hword)))
  unfold ServCpuCollector.readSchedLine
  dsimp only
  rw [if_neg hname, if_neg hthreads]
  rfl

theorem compile_threads : Lua.compile "threads" = ⟨[], Lua.literal "threads".toList⟩ := rfl

theorem readSchedLine_lua_other {line : String} (h : IsOther line) (pid : Nat)
    (d : LuaCpu × LuaCpuLocals) : LuaCpu.readSchedLine pid d line = some d := by
  have hname : Lua.luaMatch "(%a+.%a+_%a+_%a+)" line ≠ some "se.sum_exec_runtime" :=
    fun hmatch => h.runtime (Lua.infix_of_luaMatch hmatch)
  have hthreads : Lua.luaMatch "threads" line ≠ some "threads" :=
    fun hmatch => h.threads (Lua.infix_of_luaMatch hmatch)
  unfold LuaCpu.readSchedLine
  rw [if_neg hname, if_neg hthreads]
  rfl

variable (f : SchedFile)

namespace SchedFile

/-- The words of the header after the name. -/
def headerWords : List String :=
  ["(" ++ toString f.pid ++ ",", "#threads:", toString f.threads ++ ")"]

theorem toList_header : f.header.toList = f.comm.toList ++ (fields f.headerWords).toList := by
  simp [header, headerWords, fields]

theorem tokens_header (h : IsWord f.comm) : tokens f.header = f.comm :: f.headerWords := by
  have hwords : ∀ w ∈ f.headerWords, IsWord w := by
    unfold headerWords
    rw [List.forall_mem_cons, List.forall_mem_cons, List.forall_mem_cons]
    refine ⟨isWord_around (isWord_nat _) (by decide) (by decide), ⟨by decide, by decide⟩, ?_,
      fun _ h => absurd h List.not_mem_nil⟩
    exact isWord_around (a := "") (isWord_nat _) (by decide) (by decide)
  have hline := tokens_fields f.toList_header hwords
  rw [tokens_of_isWord h] at hline
  exact hline

/-- The name of a process is too short for that of the runtime. -/
theorem comm_ne : f.comm ≠ runtimeName := by
  intro h
  have hlen := f.comm_length
  rw [h] at hlen
  exact absurd hlen (by decide)

theorem readSchedLine_header (h : IsWord f.comm) (pid : Nat) (c : ServCpuCollector × CpuLocals) :
    ServCpuCollector.readSchedLine pid c f.header
      = some (c.1, { c.2 with thread := addUInt32 c.2.thread (toUInt32 f.threads) }) := by
  have hname : some f.comm ≠ some "se.sum_exec_runtime" := fun heq =>
    f.comm_ne (Option.some.inj heq)
  have hcut : String.ofList ((toString f.threads ++ ")").toList.take
      ((toString f.threads ++ ")").length - 1)) = toString f.threads := by
    rw [← String.length_toList, String.toList_append, List.length_append]
    show String.ofList (((toString f.threads).toList ++ [')']).take
      ((toString f.threads).toList.length + 1 - 1)) = _
    rw [Nat.add_sub_cancel, List.take_left, String.ofList_toList]
  unfold ServCpuCollector.readSchedLine
  rw [f.tokens_header h]
  unfold headerWords
  dsimp only [List.getElem?_cons_zero, List.getElem?_cons_succ, Option.getD_some]
  rw [if_neg hname, if_pos rfl, hcut, atoi_nat]
  rfl

/-- The name of the runtime is no part of the header. -/
theorem not_infix_header : ¬ runtimeName.toList <:+: f.header.toList := by
  let tail := "(".toList ++ Nat.toDigits 10 f.pid ++ ", #threads: ".toList ++
    Nat.toDigits 10 f.threads ++ [')']
  have hsplit : f.header.toList = f.comm.toList ++ ' ' :: tail := by
    simp [header, tail]
  have htail : '_' ∉ tail := by
    have hdigit : ∀ n, '_' ∉ Nat.toDigits 10 n := fun n => not_mem_toDigits isBase_ten (by decide)
    simp [tail, hdigit]
  intro h
  rw [hsplit] at h
  rcases infix_of_blank (by decide) h with hcomm | hrest
  · have hlen := hcomm.length_le
    have hcommlen := f.comm_length
    rw [String.length_toList, String.length_toList] at hlen
    have hname : runtimeName.length = 19 := by decide
    omega
  · exact htail (hrest.subset (by decide))

/-- The last number of the header. -/
theorem luaMatch_header : (Lua.luaMatch ".*: (%d+)" f.header).bind tonumber
    = some (f.threads : ℚ) := by
  have hpattern : Lua.compile ".*: (%d+)"
      = ⟨[⟨fun _ => true, .star⟩, ⟨(· == ':'), .one⟩, ⟨(· == ' '), .one⟩],
        [⟨isDigit, .plus⟩]⟩ := rfl
  let pre := f.comm.toList ++ " (".toList ++ Nat.toDigits 10 f.pid ++ ", #threads".toList
  have hsplit : f.header.toList = pre ++ ':' :: ' ' :: (Nat.toDigits 10 f.threads ++ [')']) := by
    simp [header, pre]
  -- There is no colon after the last one.
  have hcolon : ':' ∉ ' ' :: (Nat.toDigits 10 f.threads ++ [')']) := by
    have hdigit : ':' ∉ Nat.toDigits 10 f.threads := not_mem_toDigits isBase_ten (by decide)
    simp [hdigit]
  have hfail : ∀ c rest, ':' :: ' ' :: (Nat.toDigits 10 f.threads ++ [')']) = c :: rest →
      ∀ u, u <:+ rest → Lua.splits [⟨(· == ':'), .one⟩, ⟨(· == ' '), .one⟩] u = [] := by
    intro c rest heq u hu
    obtain ⟨-, rfl⟩ := List.cons.inj heq
    exact Lua.splits_one_of_not_mem fun hmem => hcolon (hu.subset hmem)
  have hbefore := Lua.First.last (a := pre) (Lua.First.one (p := (· == ':')) (by decide)
    (Lua.First.one (p := (· == ' ')) (c := ' ') (by decide)
      (Lua.first_nil (Nat.toDigits 10 f.threads ++ [')'])))) hfail
  have hgroup := Lua.First.plus (l := []) (Nat.toDigits_ne_nil (b := 10) (n := f.threads))
    (isDigit_toDigits f.threads) (v := [')']) (by simp; decide) (Lua.first_nil _)
  have hmatch := Lua.matchIn_of_matchAt (Lua.matchAt_of_first (p := ⟨_, _⟩) hbefore hgroup)
  unfold Lua.luaMatch
  rw [hpattern, hsplit, hmatch, List.append_nil]
  exact tonumber_toDigits String.toList_ofList

theorem readSchedLine_lua_header (pid : Nat) (d : LuaCpu × LuaCpuLocals) :
    LuaCpu.readSchedLine pid d f.header
      = some (d.1, { d.2 with thread := d.2.thread + f.threads }) := by
  have hname : Lua.luaMatch "(%a+.%a+_%a+_%a+)" f.header ≠ some "se.sum_exec_runtime" :=
    fun hmatch => f.not_infix_header (Lua.infix_of_luaMatch hmatch)
  have hthreads : Lua.luaMatch "threads" f.header = some "threads" := by
    have hinfix : "threads".toList <:+: f.header.toList :=
      ⟨f.comm.toList ++ " (".toList ++ Nat.toDigits 10 f.pid ++ ", #".toList,
        ": ".toList ++ Nat.toDigits 10 f.threads ++ [')'], by simp [header]⟩
    unfold Lua.luaMatch
    rw [compile_threads, Lua.matchIn_literal, if_pos hinfix]
    rfl
  unfold LuaCpu.readSchedLine
  rw [if_neg hname, if_pos hthreads, f.luaMatch_header]
  rfl

theorem toList_number : f.number.toList
    = Nat.toDigits 10 f.ms ++ '.' :: (Nat.toDigits 10 f.ns).leftpad 6 '0' := String.toList_ofList

/-- The characters of the number are digits and a point. -/
theorem all_number {p : Char → Prop} (hdigit : ∀ d < 10, p (Nat.digitChar d)) (hpoint : p '.') :
    ∀ c ∈ f.number.toList, p c := by
  intro c hc
  rw [toList_number] at hc
  rcases List.mem_append.mp hc with hc | hc
  · exact all_toDigits isBase_ten hdigit c hc
  · rcases List.mem_cons.mp hc with rfl | hc
    · exact hpoint
    · exact all_leftpad isBase_ten 6 hdigit c hc

/-- The runtime line: its name, a colon between blanks, and the number. -/
theorem toList_runtimeLine : f.runtimeLine.toList = runtimeName.toList ++
    (List.replicate 26 ' ' ++ ':' ::
      (List.replicate (14 - (Nat.toDigits 10 f.ms).length) ' ' ++ f.number.toList)) := by
  have hname : runtimeName.toList.rightpad 45 ' '
      = runtimeName.toList ++ List.replicate 26 ' ' := by decide
  unfold runtimeLine
  rw [String.toList_ofList, hname, List.append_assoc]

/-- With fewer than 14 digits before the point, the number is a word of its own. -/
theorem tokens_runtimeLine (h : f.ms < 10 ^ 13) :
    tokens f.runtimeLine = [runtimeName, ":", f.number] := by
  have hlen : (Nat.toDigits 10 f.ms).length ≤ 13 :=
    (Nat.length_toDigits_le_iff (by decide) (by decide)).mpr h
  obtain ⟨k, hk⟩ : ∃ k, 14 - (Nat.toDigits 10 f.ms).length = k + 1 :=
    ⟨13 - (Nat.toDigits 10 f.ms).length, by omega⟩
  have hnumber : IsWord f.number := by
    refine ⟨fun hempty => ?_,
      f.all_number (p := fun c => isSpace c = false) (by decide) (by decide)⟩
    have htext := f.toList_number
    rw [hempty] at htext
    exact Nat.toDigits_ne_nil (List.append_eq_nil_iff.mp htext.symm).1
  let tail := String.ofList (':' :: ' ' :: (List.replicate k ' ' ++ f.number.toList))
  have hhead : tokens f.runtimeLine = [runtimeName] ++ tokens tail := by
    have hcut := tokens_append (s := f.runtimeLine) (a := runtimeName)
      (b := String.ofList (List.replicate 25 ' ' ++ tail.toList)) (c := ' ')
      (by rw [toList_runtimeLine, hk]; simp [tail, List.replicate_succ]) (by decide)
    rw [hcut, tokens_blanks (a := tail) String.toList_ofList
      fun c hc => by rw [List.eq_of_mem_replicate hc]; decide]
    rfl
  have htail : tokens tail = [":"] ++ tokens f.number := by
    have hcut := tokens_append (s := tail) (a := ":")
      (b := String.ofList (List.replicate k ' ' ++ f.number.toList)) (c := ' ')
      (by simp [tail]) (by decide)
    rw [hcut, tokens_blanks (a := f.number) String.toList_ofList
      fun c hc => by rw [List.eq_of_mem_replicate hc]; decide]
    rfl
  rw [hhead, htail, tokens_of_isWord hnumber]
  rfl

/-- The sum of the growths of the runtime, with one more reading. -/
def addRuntime (old : Option ℚ) (v sum : ℚ) : ℚ :=
  match old with
  | some old => if old < v then sum + (v - old) else sum
  | none => sum

theorem readSchedLine_runtime (h : f.ms < 10 ^ 13) (pid : Nat)
    (c : ServCpuCollector × CpuLocals) : ServCpuCollector.readSchedLine pid c f.runtimeLine
      = some ({ c.1 with values := Function.update c.1.values pid (some f.runtime) },
        { c.2 with sum := addRuntime (c.1.values pid) f.runtime c.2.sum }) := by
  unfold ServCpuCollector.readSchedLine
  rw [f.tokens_runtimeLine h]
  dsimp only [List.getElem?_cons_zero, List.getElem?_cons_succ, Option.getD_some]
  rw [if_pos (show some runtimeName = some "se.sum_exec_runtime" from rfl),
    stod_of_digits f.toList_number]
  rfl

theorem compile_runtime : Lua.compile "(%a+.%a+_%a+_%a+)"
    = ⟨[], [⟨Lua.isAlpha, .plus⟩, ⟨fun _ => true, .one⟩, ⟨Lua.isAlpha, .plus⟩, ⟨(· == '_'), .one⟩,
      ⟨Lua.isAlpha, .plus⟩, ⟨(· == '_'), .one⟩, ⟨Lua.isAlpha, .plus⟩]⟩ := rfl

theorem compile_fraction : Lua.compile "(%d+.%d+)"
    = ⟨[], [⟨isDigit, .plus⟩, ⟨fun _ => true, .one⟩, ⟨isDigit, .plus⟩]⟩ := rfl

/-- The name matches up to its end. -/
theorem luaMatch_runtime : Lua.luaMatch "(%a+.%a+_%a+_%a+)" f.runtimeLine
    = some "se.sum_exec_runtime" := by
  let tail := List.replicate 25 ' ' ++ ':' ::
    (List.replicate (14 - (Nat.toDigits 10 f.ms).length) ' ' ++ f.number.toList)
  have hline : f.runtimeLine.toList = [] ++ (['s', 'e'] ++ '.' :: (['s', 'u', 'm'] ++
      '_' :: (['e', 'x', 'e', 'c'] ++ '_' :: (['r', 'u', 'n', 't', 'i', 'm', 'e'] ++
        ' ' :: tail)))) := by
    rw [toList_runtimeLine]
    simp [tail, runtimeName, List.replicate_succ]
  have hfirst := Lua.First.plus (p := Lua.isAlpha) (l := [])
    (u := ['r', 'u', 'n', 't', 'i', 'm', 'e']) (v := ' ' :: tail) (by simp) (by decide)
    (by simp; decide) (Lua.first_nil _)
  have hexec := Lua.First.plus (p := Lua.isAlpha) (u := ['e', 'x', 'e', 'c']) (by simp) (by decide)
    (by simp; decide) (Lua.First.one (p := (· == '_')) (c := '_') (by decide) hfirst)
  have hsum := Lua.First.plus (p := Lua.isAlpha) (u := ['s', 'u', 'm']) (by simp) (by decide)
    (by simp; decide) (Lua.First.one (p := (· == '_')) (c := '_') (by decide) hexec)
  have hmatch := Lua.matchIn_run (p := Lua.isAlpha) (a := []) (u := ['s', 'e']) (by simp)
    (by simp) (by decide) (by simp; decide)
    (Lua.First.one (p := fun _ => true) (c := '.') rfl hsum)
  unfold Lua.luaMatch
  rw [compile_runtime, hline]
  exact congrArg (Option.map String.ofList) hmatch

/-- The first two numbers with a character between them. -/
theorem luaMatch_fraction : (Lua.luaMatch "(%d+.%d+)" f.runtimeLine).bind tonumber
    = some f.runtime := by
  let frac := (Nat.toDigits 10 f.ns).leftpad 6 '0'
  have hfrac : ∀ c ∈ frac, isDigit c = true := all_leftpad isBase_ten 6 (by decide)
  have hne : frac ≠ [] := fun hnil =>
    Nat.toDigits_ne_nil (List.append_eq_nil_iff.mp hnil).2
  let pre := runtimeName.toList ++ (List.replicate 26 ' ' ++ ':' ::
    List.replicate (14 - (Nat.toDigits 10 f.ms).length) ' ')
  have hpre : ∀ c ∈ pre, isDigit c = false := by
    have hname : ∀ c ∈ runtimeName.toList, isDigit c = false := by decide
    intro c hc
    simp only [pre, List.mem_append, List.mem_cons, List.mem_replicate] at hc
    rcases hc with hc | ⟨-, rfl⟩ | rfl | ⟨-, rfl⟩
    · exact hname c hc
    · decide
    · decide
    · decide
  have hline : f.runtimeLine.toList = pre ++ (Nat.toDigits 10 f.ms ++ '.' :: (frac ++ [])) := by
    rw [toList_runtimeLine, toList_number]
    simp [pre, frac]
  have hpoint := Lua.First.one (p := fun _ => true) (c := '.') rfl
    (Lua.First.plus (l := []) hne hfrac (v := []) (by simp) (Lua.first_nil _))
  have hmatch := Lua.matchIn_run hpre Nat.toDigits_ne_nil (isDigit_toDigits f.ms) (by simp; decide)
    hpoint
  have hnumber : (String.ofList (Nat.toDigits 10 f.ms ++ '.' :: (frac ++ []))) = f.number := by
    rw [List.append_nil]
    rfl
  unfold Lua.luaMatch
  rw [compile_fraction, hline, hmatch, Option.map_some, hnumber, Option.bind_some]
  exact tonumber_of_digits f.toList_number hfrac

theorem readSchedLine_lua_runtime (pid : Nat) (d : LuaCpu × LuaCpuLocals) :
    LuaCpu.readSchedLine pid d f.runtimeLine
      = some ({ d.1 with values := Function.update d.1.values pid (some f.runtime) },
        { d.2 with sum := grown (d.1.values pid) f.runtime d.2.sum }) := by
  unfold LuaCpu.readSchedLine
  rw [if_pos f.luaMatch_runtime]
  dsimp only
  rw [f.luaMatch_fraction, luaGrow_some]
  rfl

theorem linesOf_text (h : IsWord f.comm) :
    linesOf f.text = f.header :: (f.before ++ f.runtimeLine :: f.after) := by
  have hcomm : '\n' ∉ f.comm.toList := fun hc => absurd (h.solid _ hc) (by decide)
  have hdigit : ∀ n, '\n' ∉ Nat.toDigits 10 n := fun n => not_mem_toDigits isBase_ten (by decide)
  have hname : '\n' ∉ runtimeName.toList := by decide
  have hnumber : '\n' ∉ f.number.toList := fun hc =>
    f.all_number (p := (· ≠ '\n')) (by decide) (by decide) _ hc rfl
  refine linesOf_fileOf fun l hl => ?_
  rcases List.mem_cons.mp hl with rfl | hl
  · simp [header, hcomm, hdigit]
  · rcases List.mem_append.mp hl with hl | hl
    · exact (f.before_other l hl).one_line
    · rcases List.mem_cons.mp hl with rfl | hl
      · rw [toList_runtimeLine]
        simp [hname, hnumber]
      · exact (f.after_other l hl).one_line

/-- What the collector reads from the file. -/
theorem foldlM_readSchedLine (h : IsWord f.comm) (hms : f.ms < 10 ^ 13) (pid : Nat)
    (c : ServCpuCollector × CpuLocals) :
    (linesOf f.text).foldlM (ServCpuCollector.readSchedLine pid) c
      = some ({ c.1 with values := Function.update c.1.values pid (some f.runtime) },
        { c.2 with
          sum := addRuntime (c.1.values pid) f.runtime c.2.sum
          thread := addUInt32 c.2.thread (toUInt32 f.threads) }) := by
  have hothers : ∀ (lines : List String) c, (∀ l ∈ lines, IsOther l) →
      lines.foldlM (ServCpuCollector.readSchedLine pid) c = some c := fun lines c hlines =>
    foldlM_fixed fun l hl => readSchedLine_other (hlines l hl) pid c
  rw [f.linesOf_text h, foldlM_cons_some (f.readSchedLine_header h pid c),
    foldlM_append_some (hothers _ _ f.before_other),
    foldlM_cons_some (f.readSchedLine_runtime hms pid _), hothers _ _ f.after_other]

/-- What the script reads from it. -/
theorem foldlM_readSchedLine_lua (h : IsWord f.comm) (pid : Nat) (d : LuaCpu × LuaCpuLocals) :
    (linesOf f.text).foldlM (LuaCpu.readSchedLine pid) d
      = some ({ d.1 with values := Function.update d.1.values pid (some f.runtime) },
        { d.2 with
          sum := grown (d.1.values pid) f.runtime d.2.sum
          thread := d.2.thread + f.threads }) := by
  have hothers : ∀ (lines : List String) d, (∀ l ∈ lines, IsOther l) →
      lines.foldlM (LuaCpu.readSchedLine pid) d = some d := fun lines d hlines =>
    foldlM_fixed fun l hl => readSchedLine_lua_other (hlines l hl) pid d
  rw [f.linesOf_text h, foldlM_cons_some (f.readSchedLine_lua_header pid d),
    foldlM_append_some (hothers _ _ f.before_other),
    foldlM_cons_some (f.readSchedLine_lua_runtime pid _), hothers _ _ f.after_other]

end SchedFile

end SchedLines

/-! ### `/proc/<pid>/stat` -/

/-- `/proc/<pid>/stat`: the name of the process, the letter of its state, the ten numbers from
the parent PID on, the four times, and the numbers after them. -/
structure ProcStat where
  pid : Nat
  comm : String
  state : Char
  before : List Int
  utime : Nat
  stime : Nat
  cutime : Nat
  cstime : Nat
  after : List Int
  comm_line : '\n' ∉ comm.toList
  state_alpha : Lua.isAlpha state = true
  length_before : before.length = 10

namespace ProcStat
variable (f : ProcStat)

/-- The numbers after the state. -/
def numbers : List Int := f.before ++ [(f.utime : Int), f.stime, f.cutime, f.cstime] ++ f.after

theorem toList_state : (String.singleton f.state).toList = [f.state] := String.toList_singleton _

theorem rest_word : ∀ w ∈ String.singleton f.state :: f.numbers.map toString,
    IsWord w ∧ ')' ∉ w.toList := by
  have hstate : ∀ c, Lua.isAlpha c = false → f.state ≠ c := by
    rintro c hc rfl
    exact absurd f.state_alpha (by simp [hc])
  have hsolid : isSpace f.state = false := by
    simp only [isSpace, Bool.or_eq_false_iff, beq_eq_false_iff_ne]
    exact ⟨⟨⟨⟨⟨hstate _ (by decide), hstate _ (by decide)⟩, hstate _ (by decide)⟩,
      hstate _ (by decide)⟩, hstate _ (by decide)⟩, hstate _ (by decide)⟩
  rw [List.forall_mem_cons, List.forall_mem_map]
  refine ⟨⟨⟨fun h => ?_, ?_⟩, ?_⟩, fun i _ => ⟨isWord_int i, fun hc => ?_⟩⟩
  · have hnil := f.toList_state
    rw [h] at hnil
    exact List.cons_ne_nil _ _ hnil.symm
  · rw [toList_state]
    exact fun c hc => List.mem_singleton.mp hc ▸ hsolid
  · rw [toList_state]
    exact fun hc => hstate ')' (by decide) (List.mem_singleton.mp hc).symm
  · exact all_int (p := (· ≠ ')')) (by decide) (by decide) i _ hc rfl

/-- The line of the file. -/
def line : StatLine where
  pid := f.pid
  comm := f.comm
  rest := String.singleton f.state :: f.numbers.map toString
  comm_line := f.comm_line
  rest_word := f.rest_word
  length_rest := by
    have hlen := f.length_before
    simp only [numbers, List.length_cons, List.length_map, List.length_append, List.length_nil]
    omega

/-- The text of the file. -/
def text : String := fileOf [f.line.text]

/-- The four times, with what is around them. -/
theorem getElem?_numbers (i : Nat) : (f.numbers.map toString)[10 + i]?
    = (([f.utime, f.stime, f.cutime, f.cstime] : List Nat).map toString
        ++ f.after.map toString)[i]? := by
  have hlen : (f.before.map toString).length = 10 := by
    rw [List.length_map, f.length_before]
  unfold numbers
  rw [List.append_assoc, List.map_append, List.getElem?_append_right (by omega), hlen,
    Nat.add_sub_cancel_left, List.map_append]
  rfl

/-- The collector reads the four times. -/
theorem wordValue_text (h : ¬ HasBlank f.comm) : let words := tokens f.line.text
    ServCpuCollector.wordValue words 13 = toUInt32 f.utime ∧
      ServCpuCollector.wordValue words 14 = toUInt32 f.stime ∧
      ServCpuCollector.wordValue words 15 = toUInt32 f.cutime ∧
      ServCpuCollector.wordValue words 16 = toUInt32 f.cstime := by
  have hword : ∀ i n, (([f.utime, f.stime, f.cutime, f.cstime] : List Nat).map toString
      ++ f.after.map toString)[i]? = some (toString (n : Nat)) →
      ServCpuCollector.wordValue (tokens f.line.text) (13 + i) = toUInt32 n := by
    intro i n hi
    have hplace : 14 + i - 3 = 10 + i + 1 := by omega
    have hfield : wordOf f.line.text (14 + i) = toString n := by
      rw [f.line.wordOf_eq_fieldOf h (by omega), f.line.fieldOf_text, hplace]
      show ((String.singleton f.state :: f.numbers.map toString)[10 + i + 1]?).getD "" = _
      rw [List.getElem?_cons_succ, f.getElem?_numbers, hi, Option.getD_some]
    have hplace' : 14 + i - 1 = 13 + i := by omega
    unfold wordOf at hfield
    rw [hplace'] at hfield
    unfold ServCpuCollector.wordValue
    rw [hfield, atoi_nat]
  exact ⟨hword 0 _ rfl, hword 1 _ rfl, hword 2 _ rfl, hword 3 _ rfl⟩

theorem linesOf_text : linesOf f.text = [f.line.text] := f.line.linesOf_stat

/-- The script finds the PID and the numbers, without their signs. -/
theorem gmatch_text (h : ∀ c ∈ f.comm.toList, isDigit c = false) : Lua.gmatch "%d+" f.text
    = toString f.pid :: f.numbers.map (fun i => toString i.natAbs) := by
  let gap := " (".toList ++ f.comm.toList ++ [')', ' ', f.state]
  have hgap : ∀ c ∈ gap, isDigit c = false := by
    have hstate := Lua.isDigit_of_isAlpha f.state_alpha
    intro c hc
    rcases List.mem_append.mp hc with hc | hc
    · rcases List.mem_append.mp hc with hc | hc
      · have hopen : ∀ c ∈ " (".toList, isDigit c = false := by decide
        exact hopen c hc
      · exact h c hc
    · simp only [List.mem_cons, List.not_mem_nil, or_false] at hc
      rcases hc with rfl | rfl | rfl
      · decide
      · decide
      · exact hstate
  have hsplit : f.text.toList = Nat.toDigits 10 f.pid ++ (gap ++
      ((fields (f.numbers.map toString)).toList ++ ['\n'])) := by
    have hline : f.line.text.toList = Nat.toDigits 10 f.pid ++ (gap ++
        (fields (f.numbers.map toString)).toList) := by
      rw [f.line.toList_text]
      simp [StatLine.head, line, gap, fields]
    have htext : f.text.toList = f.line.text.toList ++ ['\n'] := by
      simp [text, fileOf]
    rw [htext, hline, List.append_assoc, List.append_assoc]
  rw [Lua.gmatch_digits, hsplit, Lua.digitRuns_run Nat.toDigits_ne_nil (isDigit_toDigits _)
    (by simp [gap]; decide), Lua.digitRuns_skip hgap, Lua.digitRuns_fields _ (by simp; decide)]
  have hlast : Lua.digitRuns ['\n'] = [] := rfl
  rw [hlast, List.append_nil, List.map_cons, List.map_map]
  rfl

/-- The numbers before the times and after them leave the script alone. -/
theorem foldlM_readStatPart_others {pid : Nat} {parts : List (String × Nat)}
    (h : ∀ part ∈ parts, part.2 < 14 ∨ 17 < part.2) (d : LuaCpu × LuaCpuLocals) :
    parts.foldlM (LuaCpu.readStatPart pid) d = some d := by
  refine foldlM_fixed fun part hpart => ?_
  have hplace := h part hpart
  unfold LuaCpu.readStatPart
  dsimp only
  rw [if_neg (by omega), if_neg (by omega), if_neg (by omega), if_neg (by omega)]
  rfl

/-- The script after the four times of a process. -/
def luaTimes (pid : Nat) (d : LuaCpu × LuaCpuLocals) : LuaCpu × LuaCpuLocals :=
  ({ d.1 with
      users := Function.update d.1.users pid (some (f.utime : ℚ))
      sys := Function.update d.1.sys pid (some (f.stime : ℚ))
      cusers := Function.update d.1.cusers pid (some (f.cutime : ℚ))
      csys := Function.update d.1.csys pid (some (f.cstime : ℚ)) },
    { d.2 with
      resUsers := grown (d.1.users pid) f.utime d.2.resUsers
      resSys := grown (d.1.sys pid) f.stime d.2.resSys
      resCusers := grown (d.1.cusers pid) f.cutime d.2.resCusers
      resCsys := grown (d.1.csys pid) f.cstime d.2.resCsys })

/-- The script reads the four times. -/
theorem foldlM_readStatPart (h : ∀ c ∈ f.comm.toList, isDigit c = false) (pid : Nat)
    (d : LuaCpu × LuaCpuLocals) :
    ((Lua.gmatch "%d+" f.text).zipIdx 3).foldlM (LuaCpu.readStatPart pid) d
      = some (f.luaTimes pid d) := by
  let first := toString f.pid :: f.before.map (fun i => toString i.natAbs)
  let last := f.after.map (fun i => toString i.natAbs)
  have hfirst : first.length = 11 := by
    simp [first, f.length_before]
  have hsplit : toString f.pid :: f.numbers.map (fun i => toString i.natAbs)
      = first ++ ([toString f.utime, toString f.stime, toString f.cutime, toString f.cstime]
        ++ last) := by
    simp [numbers, first, last]
  have hnumber : ∀ n, tonumber (toString (n : Nat)) = some (n : ℚ) := fun n =>
    tonumber_toDigits (toList_nat n)
  have htimes : ([toString f.utime, toString f.stime, toString f.cutime,
      toString f.cstime].zipIdx (3 + first.length)).foldlM (LuaCpu.readStatPart pid) d
      = some (f.luaTimes pid d) := by
    rw [hfirst]
    simp only [List.zipIdx_cons, List.zipIdx_nil, List.foldlM_cons, List.foldlM_nil,
      LuaCpu.readStatPart, hnumber, luaGrow_some]
    rfl
  have hbefore : (first.zipIdx 3).foldlM (LuaCpu.readStatPart pid) d = some d := by
    refine foldlM_readStatPart_others (fun part hpart => .inl ?_) d
    have hplace := List.snd_lt_add_of_mem_zipIdx hpart
    omega
  rw [f.gmatch_text h, hsplit, List.zipIdx_append, foldlM_append_some hbefore,
    List.zipIdx_append, foldlM_append_some htimes]
  refine foldlM_readStatPart_others (fun part hpart => .inr ?_) _
  have hplace := List.le_snd_of_mem_zipIdx hpart
  simp only [List.length_cons, List.length_nil] at hplace
  omega

end ProcStat

/-! ### The turn of a process -/

/-- The command name is a word, and the runtime has its own column. -/
structure SchedFile.Plain (s : SchedFile) : Prop where
  comm : IsWord s.comm
  runtime : s.ms < 10 ^ 13

/-- The command name has no blanks and no digits, and the times fit. -/
structure ProcStat.Plain (f : ProcStat) : Prop where
  blank : ¬ HasBlank f.comm
  digit : ∀ c ∈ f.comm.toList, isDigit c = false
  utime : f.utime < 0x100000000
  stime : f.stime < 0x100000000
  cutime : f.cutime < 0x100000000
  cstime : f.cstime < 0x100000000

/-- What a pass reads of a process. -/
structure Reading where
  runtime : ℚ := 0
  threads : Nat := 0
  utime : Nat := 0
  stime : Nat := 0
  cutime : Nat := 0
  cstime : Nat := 0

/-- The reading of two files. -/
def Reading.ofFiles (s : SchedFile) (f : ProcStat) : Reading where
  runtime := s.runtime
  threads := s.threads
  utime := f.utime
  stime := f.stime
  cutime := f.cutime
  cstime := f.cstime

/-- The collector after the turn of a process. -/
def turn (r : Reading) (pid : Nat) (c : ServCpuCollector × CpuLocals) :
    ServCpuCollector × CpuLocals :=
  ({ c.1 with
      values := Function.update c.1.values pid (some r.runtime)
      users := Function.update c.1.users pid (some r.utime)
      sys := Function.update c.1.sys pid (some r.stime)
      cusers := Function.update c.1.cusers pid (some r.cutime)
      csys := Function.update c.1.csys pid (some r.cstime) },
    { c.2 with
      sum := SchedFile.addRuntime (c.1.values pid) r.runtime c.2.sum
      thread := addUInt32 c.2.thread (toUInt32 r.threads)
      process := addUInt32 c.2.process 1
      resUsers := ServCpuCollector.grow (c.1.users pid) r.utime c.2.resUsers
      resSys := ServCpuCollector.grow (c.1.sys pid) r.stime c.2.resSys
      resCusers := ServCpuCollector.grow (c.1.cusers pid) r.cutime c.2.resCusers
      resCsys := ServCpuCollector.grow (c.1.csys pid) r.cstime c.2.resCsys })

/-- The script after the turn of a process. -/
def luaTurn (r : Reading) (pid : Nat) (d : LuaCpu × LuaCpuLocals) : LuaCpu × LuaCpuLocals :=
  ({ d.1 with
      values := Function.update d.1.values pid (some r.runtime)
      users := Function.update d.1.users pid (some (r.utime : ℚ))
      sys := Function.update d.1.sys pid (some (r.stime : ℚ))
      cusers := Function.update d.1.cusers pid (some (r.cutime : ℚ))
      csys := Function.update d.1.csys pid (some (r.cstime : ℚ)) },
    { d.2 with
      sum := grown (d.1.values pid) r.runtime d.2.sum
      thread := d.2.thread + r.threads
      process := d.2.process + 1
      resUsers := grown (d.1.users pid) r.utime d.2.resUsers
      resSys := grown (d.1.sys pid) r.stime d.2.resSys
      resCusers := grown (d.1.cusers pid) r.cutime d.2.resCusers
      resCsys := grown (d.1.csys pid) r.cstime d.2.resCsys })

section Turn
variable {s : SchedFile} {f : ProcStat} {pid : Nat} {files : Nat → ProcFiles}

theorem readProcess_eq_turn (hs : s.Plain) (hf : f.Plain)
    (hsched : (files pid).sched = some s.text) (hstat : (files pid).stat = some f.text)
    (c : ServCpuCollector × CpuLocals) :
    ServCpuCollector.readProcess files c pid = some (turn (.ofFiles s f) pid c) := by
  have hlen := f.line.length_tokens_text
  obtain ⟨huser, hsys, hcuser, hcsys⟩ := f.wordValue_text hf.blank
  have hfits : ∀ n, n < 0x100000000 → toUInt32 ((n : Nat) : Int) = n := fun n hn => by
    unfold toUInt32
    omega
  rw [hfits _ hf.utime] at huser
  rw [hfits _ hf.stime] at hsys
  rw [hfits _ hf.cutime] at hcuser
  rw [hfits _ hf.cstime] at hcsys
  unfold ServCpuCollector.readProcess
  rw [hsched]
  dsimp only
  rw [s.foldlM_readSchedLine hs.comm hs.runtime, Option.bind_eq_bind, Option.bind_some, hstat]
  dsimp only
  rw [f.linesOf_text, List.head?_cons]
  dsimp only
  rw [if_neg (by omega)]
  unfold ServCpuCollector.readStatLine
  rw [huser, hsys, hcuser, hcsys]
  rfl

theorem readProcess_eq_luaTurn (hs : s.Plain) (hf : f.Plain)
    (hsched : (files pid).sched = some s.text) (hstat : (files pid).stat = some f.text)
    (d : LuaCpu × LuaCpuLocals) :
    LuaCpu.readProcess files d pid = some (luaTurn (.ofFiles s f) pid d) := by
  unfold LuaCpu.readProcess
  rw [hsched]
  dsimp only
  rw [s.foldlM_readSchedLine_lua hs.comm, Option.bind_eq_bind, Option.bind_some, hstat,
    Option.getD_some, f.foldlM_readStatPart hf.digit]
  rfl

end Turn

end WatchedAgent.Proofs.CpuFiles
