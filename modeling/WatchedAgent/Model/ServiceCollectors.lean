import WatchedAgent.Lib.Decimal
import WatchedAgent.Lib.IStream

/-!
# `WatchedAgent.Model.ServiceCollectors`: the collectors of a service

`ServCpuCollector`, `ServioCollector` and `ServMemCollector` of `services/*.cpp`. A pass of
a collector reads files of `/proc` for each process of its service and publishes a sample.
`ProcPass` is what a pass reads. A sample is kept by its members, the timestamp apart. A double
is the fraction it stands for, and a quotient is `none` where it is infinite or not a number.

`collect` is `none` where an exception ends the pass. A line without words is skipped,
where the source reads a first word that is not there.
-/

set_option autoImplicit false

namespace WatchedAgent.Model

open WatchedAgent.Lib

/-- The files of `/proc/<pid>` a collector reads. `none` cannot be opened. -/
structure ProcFiles where
  sched : Option String := none
  stat : Option String := none
  io : Option String := none
  smaps : Option String := none

/-- What a pass reads: `/proc/stat`, and the files of the processes of the service. -/
structure ProcPass where
  cpuStat : String := ""
  pids : List Nat
  files : Nat → ProcFiles

/-- The lines `while(getline(f, line))` reads from a file. -/
def linesOf (content : String) : List String :=
  (IStream.readLines ⟨content.toList, 0, false, false⟩).1.map String.ofList

/-- The text of a file of whole lines. -/
def fileOf (lines : List String) : String :=
  String.ofList (lines.flatMap (fun l => l.toList ++ ['\n']))

/-- A file of whole lines is read line by line. -/
theorem linesOf_fileOf {lines : List String} (h : ∀ l ∈ lines, '\n' ∉ l.toList) :
    linesOf (fileOf lines) = lines := by
  -- The lines as texts without a newline.
  let ls : List Line := lines.pmap (fun l hl => ⟨l.toList, hl⟩) h
  have hmap : ls.map (fun l => String.ofList l.val) = lines := by
    simp [ls, List.map_pmap]
  have htext : fileText ls = lines.flatMap (fun l => l.toList ++ ['\n']) := by
    unfold fileText
    conv_rhs => rw [← hmap, List.flatMap_map]
    simp
  have hread := IStream.readLines_wholeLines [] ls
  rw [List.nil_append] at hread
  unfold linesOf fileOf
  rw [String.toList_ofList, ← htext]
  show (IStream.readLines ⟨fileText ls, ([] : List Char).length, false, false⟩).1.map _ = _
  rw [hread, List.map_map]
  exact hmap

/-- The quotient of two doubles. -/
def quotient (a b : ℚ) : Option ℚ := if b = 0 then none else some (a / b)

theorem quotient_of_ne (a : ℚ) {b : ℚ} (h : b ≠ 0) : quotient a b = some (a / b) := if_neg h

theorem isSome_quotient (a b : ℚ) : (quotient a b).isSome = true ↔ b ≠ 0 := by
  unfold quotient
  split <;> simp_all

/-- The members of the newest sample of a ressource, with values in `α`. -/
abbrev MembersOf (α : Type) := List (String × α)

/-- Members whose values are numbers. -/
abbrev Members := MembersOf ℚ

namespace MembersOf
variable {α : Type}

/-- `v[0][name] = val`. -/
def setProperty (name : String) (val : α) : MembersOf α → MembersOf α
  | [] => [(name, val)]
  | (k, v) :: ms => if k = name then (name, val) :: ms else (k, v) :: setProperty name val ms

theorem lookup_setProperty (name key : String) (val : α) (ms : MembersOf α) :
    (ms.setProperty name val).lookup key = if key = name then some val else ms.lookup key := by
  induction ms with
  | nil =>
      by_cases hkey : key = name
      · rw [if_pos hkey, hkey, setProperty, List.lookup_cons_self]
      · rw [if_neg hkey, setProperty, List.lookup_cons, beq_eq_false_iff_ne.mpr hkey]
  | cons e ms ih =>
      obtain ⟨k, v⟩ := e
      unfold setProperty
      by_cases hk : k = name
      · subst hk
        rw [if_pos rfl]
        by_cases hkey : key = k
        · rw [if_pos hkey, hkey, List.lookup_cons_self]
        · rw [if_neg hkey, List.lookup_cons, List.lookup_cons, beq_eq_false_iff_ne.mpr hkey]
      · rw [if_neg hk]
        by_cases hkey : key = k
        · subst hkey
          rw [if_neg hk, List.lookup_cons_self, List.lookup_cons_self]
        · rw [List.lookup_cons, List.lookup_cons, beq_eq_false_iff_ne.mpr hkey, ih]

/-- A property stays there. -/
theorem isSome_lookup_setProperty {name key : String} {val : α} {ms : MembersOf α}
    (h : (ms.lookup key).isSome = true) : ((ms.setProperty name val).lookup key).isSome = true := by
  rw [lookup_setProperty]
  split
  · rfl
  · exact h

end MembersOf

/-- A sum kept in a `uint32_t`. -/
def addUInt32 (a b : Nat) : Nat := (a + b) % 0x100000000

/-- A difference kept in a `uint64_t`. -/
def subUInt64 (a b : Nat) : Nat := (a + 0x10000000000000000 - b) % 0x10000000000000000

/-- A value for each process: the maps of a collector. -/
abbrev PidMap (α : Type) := Nat → Option α

/-! ### Processor time -/

/-- `class ServCpuCollector`, with the newest samples of its two ressources. -/
structure ServCpuCollector where
  values : PidMap ℚ := fun _ => none
  users : PidMap Nat := fun _ => none
  sys : PidMap Nat := fun _ => none
  cusers : PidMap Nat := fun _ => none
  csys : PidMap Nat := fun _ => none
  prevTotalTime : Nat := 0
  shed : Members := []
  stat : MembersOf (Option ℚ) := []

/-- The local variables of `ServCpuCollector::collect`. -/
structure CpuLocals where
  sum : ℚ := 0
  process : Nat := 0
  thread : Nat := 0
  totalTime : Nat := 0
  cpuCount : Nat := 0
  resUsers : Nat := 0
  resSys : Nat := 0
  resCusers : Nat := 0
  resCsys : Nat := 0

namespace ServCpuCollector

/-- A line of `/proc/stat`. -/
def readCpuLine (l : CpuLocals) (line : String) : CpuLocals :=
  match Text.tokens line with
  | [] => l
  | word :: words =>
      if word = "cpu" then
        let add (t : Nat) (w : String) : Nat := addUInt32 t (Text.toUInt32 (Text.atoi w))
        { l with totalTime := words.foldl add l.totalTime }
      else if word.toList.take 3 = "cpu".toList then
        { l with cpuCount := addUInt32 l.cpuCount 1 }
      else l

/-- The growth of a counter is added to `res` where the process was seen before. -/
def grow (old : Option Nat) (v res : Nat) : Nat :=
  match old with
  | some o => if o < v then addUInt32 res (v - o) else res
  | none => res

/-- A line of `/proc/<pid>/sched`. -/
def readSchedLine (pid : Nat) (c : ServCpuCollector × CpuLocals) (line : String) :
    Option (ServCpuCollector × CpuLocals) :=
  let words := Text.tokens line
  if words[0]? = some "se.sum_exec_runtime" then do
    let v ← Text.stod (words[2]?.getD "")
    let sum := match c.1.values pid with
      | some old => if old < v then c.2.sum + (v - old) else c.2.sum
      | none => c.2.sum
    return ({ c.1 with values := Function.update c.1.values pid (some v) }, { c.2 with sum })
  else if words[2]? = some "#threads:" then
    -- The closing parenthesis after the number is cut off.
    let word := words[3]?.getD ""
    let n := Text.atoi (String.ofList (word.toList.take (word.length - 1)))
    return (c.1, { c.2 with thread := addUInt32 c.2.thread (Text.toUInt32 n) })
  else return c

/-- The word at a place of a line, as a `uint32_t`. -/
def wordValue (words : List String) (i : Nat) : Nat :=
  Text.toUInt32 (Text.atoi (words[i]?.getD ""))

/-- The line of `/proc/<pid>/stat`, which has 17 words or more. -/
def readStatLine (pid : Nat) (c : ServCpuCollector × CpuLocals) (words : List String) :
    ServCpuCollector × CpuLocals :=
  let user := wordValue words 13
  let system := wordValue words 14
  let cuser := wordValue words 15
  let csystem := wordValue words 16
  ({ c.1 with
      users := Function.update c.1.users pid (some user)
      sys := Function.update c.1.sys pid (some system)
      cusers := Function.update c.1.cusers pid (some cuser)
      csys := Function.update c.1.csys pid (some csystem) },
    { c.2 with
      resUsers := grow (c.1.users pid) user c.2.resUsers
      resSys := grow (c.1.sys pid) system c.2.resSys
      resCusers := grow (c.1.cusers pid) cuser c.2.resCusers
      resCsys := grow (c.1.csys pid) csystem c.2.resCsys })

/-- The turn of a process. One that shows no `sched`, no `stat` or a short line is not
counted. -/
def readProcess (files : Nat → ProcFiles) (c : ServCpuCollector × CpuLocals) (pid : Nat) :
    Option (ServCpuCollector × CpuLocals) :=
  match (files pid).sched with
  | none => some c
  | some sched => do
      let c ← (linesOf sched).foldlM (readSchedLine pid) c
      match (files pid).stat with
      | none => return c
      | some stat =>
          match (linesOf stat).head? with
          | none => return (c.1, { c.2 with process := addUInt32 c.2.process 1 })
          | some line =>
              let words := Text.tokens line
              if words.length < 17 then return c
              let c := readStatLine pid c words
              return (c.1, { c.2 with process := addUInt32 c.2.process 1 })

/-- The samples made at the end of a pass. -/
def publish (c : ServCpuCollector) (l : CpuLocals) : ServCpuCollector :=
  let n : Nat := (100 * l.cpuCount) % 0x100000000
  let p := quotient n (subUInt64 l.totalTime c.prevTotalTime : Nat)
  { c with
    shed := c.shed
      |>.setProperty "exec_runtime" l.sum
      |>.setProperty "process" (l.process : ℚ)
      |>.setProperty "thread" (l.thread : ℚ)
    stat := c.stat
      |>.setProperty "user" (p.map ((l.resUsers : ℚ) * ·))
      |>.setProperty "system" (p.map ((l.resSys : ℚ) * ·))
      |>.setProperty "pct" (p.map ((addUInt32 l.resSys l.resUsers : ℚ) * ·))
      |>.setProperty "cuser" (p.map ((l.resCusers : ℚ) * ·))
      |>.setProperty "csystem" (p.map ((l.resCsys : ℚ) * ·)) }

/-- `ServCpuCollector::collect`: the collector afterwards, and whether it made a sample. -/
def collect (c : ServCpuCollector) (pass : ProcPass) : Option (ServCpuCollector × Bool) := do
  let l := (linesOf pass.cpuStat).foldl readCpuLine {}
  let l := if l.cpuCount = 0 then { l with cpuCount := 1 } else l
  let (c, l) ← pass.pids.foldlM (readProcess pass.files) (c, l)
  -- The first pass has nothing to compare with.
  if c.prevTotalTime ≠ 0 then
    return ({ c.publish l with prevTotalTime := l.totalTime }, true)
  else return ({ c with prevTotalTime := l.totalTime }, false)

end ServCpuCollector

/-! ### Input and output -/

/-- `class pidRessource`, with the factor 1 that the collector gives. -/
structure PidRessource where
  v : Members := []
  values : List (String × PidMap Nat) := []

namespace PidRessource

/-- `pidRessource::nextValue`: a sample is made when some value was set before, and all
values start at zero. -/
def nextValue (r : PidRessource) : PidRessource :=
  { r with v := r.values.foldl (fun v i => v.setProperty i.1 0) r.v }

/-- The map of a name is replaced, or added. -/
def setValue (name : String) (pid value : Nat) :
    List (String × PidMap Nat) → List (String × PidMap Nat)
  | [] => [(name, Function.update (fun _ => none) pid (some value))]
  | (k, m) :: ms =>
      if k = name then (name, Function.update m pid (some value)) :: ms
      else (k, m) :: setValue name pid value ms

/-- `pidRessource::setPidValue`. -/
def setPidValue (name : String) (pid value : Nat) (r : PidRessource) : PidRessource :=
  let v := match (r.values.lookup name).bind (fun m => m pid) with
    | some old =>
        if old < value then
          r.v.setProperty name ((r.v.lookup name).getD 0 + ((value - old : Nat) : ℚ))
        else r.v
    | none => r.v
  { v, values := setValue name pid value r.values }

end PidRessource

namespace ServioCollector

/-- The properties the constructor declares. -/
def properties : List String := ["rd", "wt"]

/-- A line of `/proc/<pid>/io`. -/
def readIoLine (pid : Nat) (res : PidRessource) (line : String) : PidRessource :=
  match Text.find line ':' 0 with
  | none => res
  | some i =>
      let key := String.ofList (line.toList.take i)
      let value := String.ofList (line.toList.drop (i + 1))
      let v := Text.toUInt32 (Text.atoi value)
      if key = "read_bytes" then res.setPidValue "rd" pid v
      else if key = "write_bytes" then res.setPidValue "wt" pid v
      else res

/-- The turn of a process. -/
def readProcess (files : Nat → ProcFiles) (res : PidRessource) (pid : Nat) : PidRessource :=
  match (files pid).io with
  | none => res
  | some io => (linesOf io).foldl (readIoLine pid) res

/-- `ServioCollector::collect`: the ressource afterwards, and whether it made a sample. -/
def collect (res : PidRessource) (pass : ProcPass) : PidRessource × Bool :=
  (pass.pids.foldl (readProcess pass.files) res.nextValue, !res.values.isEmpty)

end ServioCollector

/-! ### Memory -/

/-- The local variables of `ServMemCollector::collect`. -/
structure MemLocals where
  total : Nat := 0
  shared : Nat := 0
  swap : Nat := 0
  deriving DecidableEq

namespace ServMemCollector

/-- The properties the constructor declares. -/
def properties : List String := ["total", "swap", "shared"]

/-- A line of `/proc/<pid>/smaps`. -/
def readSmapsLine (l : MemLocals) (line : String) : Option MemLocals :=
  match Text.findWord line " kB" with
  | none => some l
  | some kb => do
      let key ← Text.substrN line 0 ((Text.find line ':' 0).getD line.length)
      let value ← Text.substrN line (key.length + 1) kb
      let v := Text.toUInt32 (Text.atoi value)
      if key = "Rss" then return { l with total := addUInt32 l.total v }
      else if key = "Swap" then return { l with swap := addUInt32 l.swap v }
      else if key = "Shared_Clean" then return { l with shared := addUInt32 l.shared v }
      else return l

/-- The turn of a process. -/
def readProcess (files : Nat → ProcFiles) (l : MemLocals) (pid : Nat) : Option MemLocals :=
  match (files pid).smaps with
  | none => some l
  | some smaps => (linesOf smaps).foldlM readSmapsLine l

/-- `ServMemCollector::collect`: the newest sample afterwards. -/
def collect (v : Members) (pass : ProcPass) : Option Members := do
  let l ← pass.pids.foldlM (readProcess pass.files) {}
  return v
    |>.setProperty "total" (l.total : ℚ)
    |>.setProperty "swap" (l.swap : ℚ)
    |>.setProperty "shared" (l.shared : ℚ)

end ServMemCollector

end WatchedAgent.Model
