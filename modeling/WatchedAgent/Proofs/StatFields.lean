import WatchedAgent.Lib.Fallible
import WatchedAgent.Model.Process
import WatchedAgent.Model.ServiceCollectors

/-!
# `WatchedAgent.Proofs.StatFields`: the line of a process and its command name

The kernel writes `pid (comm) state ppid ...` to `/proc/<pid>/stat`, and the command name
may have blanks and parentheses, so the fields have to be counted after the last closing
parenthesis (`fieldOf`). `getPPID` and the processor collector count the words of the line
instead.

`readsFields_iff_words` compares the two counts for the five fields that are read. A name
without white space is one word, and they agree. A name of more words moves the fields, and
they have to repeat themselves at that distance (`readsFields_iff`).
`not_readsFields_two_words` is a process whose parent PID is read as 0.
-/

set_option autoImplicit false

namespace WatchedAgent.Proofs.StatFields

open WatchedAgent.Lib
open WatchedAgent.Lib.Text
open WatchedAgent.Model

/-! ### The line and its fields -/

/-- A line of `/proc/<pid>/stat`. The fields after the command name are words without a
closing parenthesis, and with them there are at least 17. -/
structure StatLine where
  pid : Nat
  comm : String
  rest : List String
  comm_line : '\n' ∉ comm.toList
  rest_word : ∀ w ∈ rest, IsWord w ∧ ')' ∉ w.toList
  length_rest : 15 ≤ rest.length

/-- The text of the line. -/
def StatLine.text (l : StatLine) : String :=
  toString l.pid ++ " (" ++ l.comm ++ ")" ++ fields l.rest

/-- The field `k` of a line, for `k` from 3 on, counted after the last closing
parenthesis. -/
def fieldOf (line : String) (k : Nat) : String :=
  (tokens ((substr line (posAdd (rfind line ')') 1)).getD ""))[k - 3]?.getD ""

/-- The word `k` of a line, split at white space. -/
def wordOf (line : String) (k : Nat) : String := (tokens line)[k - 1]?.getD ""

/-- The number a field spells, as a `uint32_t`. -/
def number (word : String) : Nat := toUInt32 (atoi word)

namespace StatLine
variable (l : StatLine)

/-- What stands before the last parenthesis. -/
def head : List Char := Nat.toDigits 10 l.pid ++ ' ' :: '(' :: l.comm.toList

theorem toList_text : l.text.toList = l.head ++ ')' :: (fields l.rest).toList := by
  unfold text head
  simp only [String.toList_append, toList_nat]
  simp

theorem not_mem_fields : ')' ∉ (fields l.rest).toList := by
  unfold fields
  rw [String.toList_ofList, List.mem_flatMap]
  rintro ⟨w, hw, hc⟩
  rcases List.mem_cons.mp hc with hc | hc
  · exact absurd hc (by decide)
  · exact (l.rest_word w hw).2 hc

/-- The fields after the command name are those after the last parenthesis. -/
theorem fieldOf_text (k : Nat) : fieldOf l.text k = l.rest[k - 3]?.getD "" := by
  have hpos := rfind_of_split l.toList_text l.not_mem_fields
  have hlen : l.text.length = l.head.length + 1 + (fields l.rest).toList.length := by
    rw [← String.length_toList, toList_text, List.length_append, List.length_cons]
    omega
  have hsplit : l.text.toList = (l.head ++ [')']) ++ (fields l.rest).toList := by
    rw [toList_text, List.append_assoc, List.singleton_append]
  have hrest : substr l.text (l.head.length + 1) = some (fields l.rest) := by
    unfold substr
    rw [if_pos (by omega), hsplit, List.drop_left' (by simp), String.ofList_toList]
  have hwords : tokens (fields l.rest) = l.rest :=
    tokens_fields (s := fields l.rest) (a := "") (by simp)
      fun w hw => (l.rest_word w hw).1
  unfold fieldOf
  rw [hpos, posAdd, hrest, Option.getD_some, hwords]

/-- The command name in its parentheses. -/
def name : String := String.ofList ('(' :: (l.comm.toList ++ [')']))

/-- The words after the PID: those of the name in its parentheses, and the fields. -/
def row : List String := tokens l.name ++ l.rest

/-- How many words the name has beyond the first. -/
def extra : Nat := (tokens l.name).length - 1

/-- Each of the five fields spells the same number as the word that stands `extra` places
before it. -/
def Repeats : Prop := ∀ k ∈ [4, 14, 15, 16, 17],
  number (l.row[k - 2]?.getD "") = number (l.row[k - 2 + l.extra]?.getD "")

instance : Decidable l.Repeats :=
  inferInstanceAs (Decidable (∀ k ∈ [4, 14, 15, 16, 17],
    number (l.row[k - 2]?.getD "") = number (l.row[k - 2 + l.extra]?.getD "")))

theorem tokens_text : tokens l.text = toString l.pid :: l.row := by
  have hcut : tokens l.text = tokens (toString l.pid ++ " " ++ l.name) ++ l.rest := by
    refine tokens_fields ?_ fun w hw => (l.rest_word w hw).1
    unfold text name
    simp
  have hhead : tokens (toString l.pid ++ " " ++ l.name) = [toString l.pid] ++ tokens l.name := by
    rw [← tokens_of_isWord (isWord_nat l.pid)]
    exact tokens_append (c := ' ') (by simp) (by decide)
  rw [hcut, hhead]
  rfl

/-- The number of words the name takes up. -/
theorem length_tokens_name : 1 ≤ (tokens l.name).length ∧
    ((tokens l.name).length = 1 ↔ ¬ HasBlank l.comm) := by
  obtain ⟨hpos, hone⟩ := length_tokens_enclosed (s := l.name) (l := '(') (r := ')')
    String.toList_ofList (by decide) (by decide)
  refine ⟨hpos, hone.trans ?_⟩
  unfold HasBlank
  simp

theorem length_tokens_text : 17 ≤ (tokens l.text).length := by
  have hname := l.length_tokens_name.1
  have hrest := l.length_rest
  rw [tokens_text, row, List.length_cons, List.length_append]
  omega

/-- A word of the line is one of the row. -/
theorem wordOf_text {k : Nat} (hk : 3 ≤ k) : wordOf l.text k = l.row[k - 2]?.getD "" := by
  have hplace : k - 1 = k - 2 + 1 := by omega
  rw [wordOf, tokens_text, hplace, List.getElem?_cons_succ]

/-- A field stands further on in the row, by the extra words of the name. -/
theorem fieldOf_text_row {k : Nat} (hk : 3 ≤ k) :
    fieldOf l.text k = l.row[k - 2 + l.extra]?.getD "" := by
  have hname := l.length_tokens_name.1
  have hplace : k - 2 + l.extra = (tokens l.name).length + (k - 3) := by
    unfold extra
    omega
  rw [fieldOf_text, row, hplace, List.getElem?_append_right (Nat.le_add_right _ _),
    Nat.add_sub_cancel_left]

/-- A name of one word moves nothing. -/
theorem extra_of_not_hasBlank (h : ¬ HasBlank l.comm) : l.extra = 0 := by
  rw [extra, l.length_tokens_name.2.mpr h]

theorem repeats_of_not_hasBlank (h : ¬ HasBlank l.comm) : l.Repeats := by
  intro k _
  rw [l.extra_of_not_hasBlank h, Nat.add_zero]

theorem wordOf_eq_fieldOf (h : ¬ HasBlank l.comm) {k : Nat} (hk : 3 ≤ k) :
    wordOf l.text k = fieldOf l.text k := by
  rw [l.wordOf_text hk, l.fieldOf_text_row hk, l.extra_of_not_hasBlank h, Nat.add_zero]

end StatLine

/-! ### What is read -/

/-- `getPPID` and the collector read the fields of the line: the parent PID and the four
times. -/
structure ReadsFields (line : String) : Prop where
  ppid : ∀ (os : OsState) (p : Process) (e : ProcEntry), os.entry p.pid = some e →
    e.stat = line → p.getPPID os = number (fieldOf line 4)
  times : ∀ (c c' : ServCpuCollector) (pass : ProcPass) (published : Bool),
    c.collect pass = some (c', published) → ∀ pid ∈ pass.pids,
    (pass.files pid).sched.isSome = true →
    (pass.files pid).stat.bind (fun stat => (linesOf stat).head?) = some line →
    c'.users pid = some (number (fieldOf line 14)) ∧ c'.sys pid = some (number (fieldOf line 15)) ∧
      c'.cusers pid = some (number (fieldOf line 16)) ∧
      c'.csys pid = some (number (fieldOf line 17))

/-- The collector holds the times that stand at these words of the line. -/
def HoldsTimes (line : String) (pid : Nat) (c : ServCpuCollector) : Prop :=
  c.users pid = some (number (wordOf line 14)) ∧ c.sys pid = some (number (wordOf line 15)) ∧
    c.cusers pid = some (number (wordOf line 16)) ∧ c.csys pid = some (number (wordOf line 17))

/-- The four times of a process. -/
def timesOf (pid : Nat) (c : ServCpuCollector) : Option Nat × Option Nat × Option Nat × Option Nat :=
  (c.users pid, c.sys pid, c.cusers pid, c.csys pid)

theorem HoldsTimes.congr {line : String} {pid : Nat} {c c' : ServCpuCollector}
    (h : HoldsTimes line pid c) (heq : timesOf pid c' = timesOf pid c) :
    HoldsTimes line pid c' := by
  simp only [timesOf, Prod.mk.injEq] at heq
  obtain ⟨h1, h2, h3, h4⟩ := heq
  rw [HoldsTimes, h1, h2, h3, h4]
  exact h

section Collect
open ServCpuCollector

/-- A line of `sched` leaves the times alone. -/
theorem timesOf_readSchedLine (q : Nat) {pid : Nat} {c c' : ServCpuCollector × CpuLocals}
    {line : String} (h : readSchedLine pid c line = some c') : timesOf q c'.1 = timesOf q c.1 := by
  unfold readSchedLine at h
  dsimp only at h
  split at h
  · obtain ⟨v, -, h⟩ := Option.bind_eq_some_iff.mp h
    obtain rfl := Option.some.inj h
    rfl
  · split at h
    · obtain rfl := Option.some.inj h
      rfl
    · obtain rfl := Option.some.inj h
      rfl

/-- The turn of a process writes its own times at most. -/
theorem timesOf_readProcess {files : Nat → ProcFiles} {q pid : Nat} (hne : pid ≠ q)
    {c c' : ServCpuCollector × CpuLocals} (h : readProcess files c q = some c') :
    timesOf pid c'.1 = timesOf pid c.1 := by
  unfold readProcess at h
  split at h
  · obtain rfl := Option.some.inj h
    rfl
  · obtain ⟨d, hd, h⟩ := Option.bind_eq_some_iff.mp h
    have hsched : timesOf pid d.1 = timesOf pid c.1 :=
      Fallible.foldlM_keeps (I := fun d => timesOf pid d.1 = timesOf pid c.1)
        (fun _ _ _ heq hline => (timesOf_readSchedLine pid hline).trans heq) rfl hd
    split at h
    · obtain rfl := Option.some.inj h
      exact hsched
    · split at h
      · obtain rfl := Option.some.inj h
        exact hsched
      · dsimp only at h
        split at h
        · obtain rfl := Option.some.inj h
          exact hsched
        · obtain rfl := Option.some.inj h
          rw [← hsched]
          simp only [timesOf, readStatLine, Function.update_of_ne hne]

/-- The turn of the process with the line leaves its times. -/
theorem holdsTimes_readProcess {files : Nat → ProcFiles} {pid : Nat} {line : String}
    (hsched : (files pid).sched.isSome = true)
    (hline : (files pid).stat.bind (fun stat => (linesOf stat).head?) = some line)
    (hlen : 17 ≤ (tokens line).length) {c c' : ServCpuCollector × CpuLocals}
    (h : readProcess files c pid = some c') : HoldsTimes line pid c'.1 := by
  obtain ⟨sched, hsched⟩ := Option.isSome_iff_exists.mp hsched
  obtain ⟨stat, hstat, hline⟩ := Option.bind_eq_some_iff.mp hline
  unfold readProcess at h
  rw [hsched] at h
  obtain ⟨d, -, h⟩ := Option.bind_eq_some_iff.mp h
  rw [hstat] at h
  dsimp only at h
  rw [hline] at h
  dsimp only at h
  rw [if_neg (by omega)] at h
  obtain rfl := Option.some.inj h
  exact ⟨Function.update_self .., Function.update_self .., Function.update_self ..,
    Function.update_self ..⟩

/-- After a pass the collector holds the times of the words it counted. -/
theorem holdsTimes_collect {c c' : ServCpuCollector} {pass : ProcPass} {published : Bool}
    (h : c.collect pass = some (c', published)) {pid : Nat} (hpid : pid ∈ pass.pids)
    {line : String} (hsched : (pass.files pid).sched.isSome = true)
    (hline : (pass.files pid).stat.bind (fun stat => (linesOf stat).head?) = some line)
    (hlen : 17 ≤ (tokens line).length) : HoldsTimes line pid c' := by
  unfold collect at h
  obtain ⟨d, hd, h⟩ := Option.bind_eq_some_iff.mp h
  have hturns := Fallible.foldlM_of_mem (I := fun d => HoldsTimes line pid d.1)
    (fun s s' => holdsTimes_readProcess hsched hline hlen)
    (fun s q s' hs hq => by
      by_cases hne : pid = q
      · subst hne
        exact holdsTimes_readProcess hsched hline hlen hq
      · exact hs.congr (timesOf_readProcess hne hq)) hpid hd
  dsimp only at h
  split at h
  · obtain ⟨rfl, -⟩ := Prod.mk.inj (Option.some.inj h)
    exact hturns
  · obtain ⟨rfl, -⟩ := Prod.mk.inj (Option.some.inj h)
    exact hturns

end Collect

namespace StatLine
variable (l : StatLine)

theorem newline_not_mem : '\n' ∉ l.text.toList := by
  have hdigit : '\n' ∉ Nat.toDigits 10 l.pid := not_mem_toDigits isBase_ten (by decide)
  have hrest : '\n' ∉ (fields l.rest).toList := by
    unfold fields
    rw [String.toList_ofList, List.mem_flatMap]
    rintro ⟨w, hw, hc⟩
    rcases List.mem_cons.mp hc with hc | hc
    · exact absurd hc (by decide)
    · exact absurd ((l.rest_word w hw).1.solid _ hc) (by decide)
  have hcomm := l.comm_line
  rw [toList_text, head]
  simp only [List.mem_append, List.mem_cons]
  simp [hdigit, hrest, hcomm]

/-- A pass over one process, which shows the line and an empty `sched`. -/
def pass (pid : Nat) : ProcPass where
  pids := [pid]
  files := fun _ => { sched := some "", stat := some (fileOf [l.text]) }

theorem linesOf_stat : linesOf (fileOf [l.text]) = [l.text] :=
  linesOf_fileOf (List.forall_mem_singleton.mpr l.newline_not_mem)

theorem head?_stat (pid : Nat) : ((l.pass pid).files pid).stat.bind
    (fun stat => (linesOf stat).head?) = some l.text := by
  have hlines := l.linesOf_stat
  unfold pass
  dsimp only
  rw [Option.bind_some, hlines]
  rfl

/-- The pass ends without an exception. -/
theorem exists_collect (c : ServCpuCollector) (pid : Nat) :
    ∃ r, c.collect (l.pass pid) = some r := by
  have hlines := l.linesOf_stat
  have hempty : linesOf "" = [] := by decide
  have hturn : ∀ d, ∃ r, ServCpuCollector.readProcess (l.pass pid).files d pid = some r := by
    intro d
    have hwords := Nat.not_lt.mpr l.length_tokens_text
    unfold ServCpuCollector.readProcess pass
    dsimp only
    rw [hlines, hempty, List.foldlM_nil, List.head?_cons]
    dsimp only [Option.pure_def, Option.bind_eq_bind, Option.bind_some]
    rw [if_neg hwords]
    exact ⟨_, rfl⟩
  obtain ⟨d, hd⟩ := hturn (c, { cpuCount := 1 })
  have hall : (l.pass pid).pids.foldlM (ServCpuCollector.readProcess (l.pass pid).files)
      (c, { cpuCount := 1 }) = some d := by
    show [pid].foldlM _ (c, _) = _
    rw [List.foldlM_cons, hd]
    rfl
  unfold ServCpuCollector.collect
  rw [show linesOf (l.pass pid).cpuStat = [] from hempty, List.foldl_nil]
  dsimp only
  rw [if_pos rfl]
  rw [hall, Option.bind_eq_bind, Option.bind_some]
  split
  · exact ⟨_, rfl⟩
  · exact ⟨_, rfl⟩

/-- A line is read by its fields exactly when the words counted spell the same numbers. -/
theorem readsFields_iff_words : ReadsFields l.text ↔
    ∀ k ∈ [4, 14, 15, 16, 17], number (wordOf l.text k) = number (fieldOf l.text k) := by
  simp only [List.forall_mem_cons, List.not_mem_nil, false_imp_iff, implies_true, and_true]
  constructor
  · intro h
    -- One process with the line shows all five numbers.
    obtain ⟨⟨c, published⟩, hc⟩ := l.exists_collect {} 1
    have hread := holdsTimes_collect hc List.mem_cons_self rfl (l.head?_stat 1)
      l.length_tokens_text
    have htimes := h.times {} c _ published hc 1 List.mem_cons_self rfl (l.head?_stat 1)
    have hppid := h.ppid { entry := fun _ => some { stat := l.text } } { pid := 1 }
      { stat := l.text } rfl rfl
    obtain ⟨r1, r2, r3, r4⟩ := hread
    obtain ⟨t1, t2, t3, t4⟩ := htimes
    exact ⟨hppid, Option.some.inj (r1.symm.trans t1), Option.some.inj (r2.symm.trans t2),
      Option.some.inj (r3.symm.trans t3), Option.some.inj (r4.symm.trans t4)⟩
  · rintro ⟨h4, h14, h15, h16, h17⟩
    refine ⟨fun os p e he hstat => ?_, fun c c' pass published hc pid hpid hsched hline => ?_⟩
    · have hread : p.getPPID os = number (wordOf e.stat 4) := by
        unfold Process.getPPID OsState.ppid
        rw [he]
        rfl
      rw [hread, hstat, h4]
    · have hread := holdsTimes_collect hc hpid hsched hline l.length_tokens_text
      unfold HoldsTimes at hread
      rw [h14, h15, h16, h17] at hread
      exact hread

end StatLine

/-- The line is read by its fields, if and only if the command name has no white space, or
each of the five fields spells the same number as the word that stands before it by as many
places as the name has words beyond the first. -/
theorem readsFields_iff (l : StatLine) :
    ReadsFields l.text ↔ ¬ HasBlank l.comm ∨ l.Repeats := by
  have hle : ∀ k ∈ [4, 14, 15, 16, 17], 3 ≤ k := by decide
  have hrepeats : (∀ k ∈ [4, 14, 15, 16, 17],
      number (wordOf l.text k) = number (fieldOf l.text k)) ↔ l.Repeats :=
    forall₂_congr fun k hk => by rw [l.wordOf_text (hle k hk), l.fieldOf_text_row (hle k hk)]
  rw [l.readsFields_iff_words, hrepeats]
  exact ⟨.inr, fun h => h.elim l.repeats_of_not_hasBlank id⟩

/-- A process whose command name is two words. -/
def twoWords : StatLine where
  pid := 10
  comm := "a b"
  rest := ["S", "7", "10", "10", "0", "-1", "4194304", "90", "0", "0", "0", "5", "6", "1", "2"]
  comm_line := by decide
  rest_word := by
    have hwords : ∀ w ∈ ["S", "7", "10", "10", "0", "-1", "4194304", "90", "0", "0", "0", "5", "6",
        "1", "2"], w ≠ "" ∧ (∀ c ∈ w.toList, isSpace c = false) ∧ ')' ∉ w.toList := by decide
    exact fun w hw => ⟨⟨(hwords w hw).1, (hwords w hw).2.1⟩, (hwords w hw).2.2⟩
  length_rest := by decide

/-- The state of the process is read as its parent PID. -/
theorem not_readsFields_two_words : ¬ ReadsFields twoWords.text := by
  rw [twoWords.readsFields_iff_words]
  decide

end WatchedAgent.Proofs.StatFields
