import WatchedAgent.Lib.Fallible
import WatchedAgent.Lib.Run
import WatchedAgent.Model.LuaCollectors

/-!
# `WatchedAgent.Proofs.IoCollectors`: the two collectors of input and output

`ServioCollector` and `io.lua` read the same files and declare the properties `rd` and `wt`.
The script publishes the written bytes as `wr`, so its samples have no `wt`, and whenever
both collectors publish, the samples differ.

The script publishes where some process was seen before, and then the other collector does
too. `ioSamples_agree_iff` is the exact condition on a run: no process shows its file in two
passes. `not_samplesAgree_two_passes` is a run of two passes.
-/

set_option autoImplicit false

namespace WatchedAgent.Proofs.IoCollectors

open WatchedAgent.Lib
open WatchedAgent.Lib.Fallible
open WatchedAgent.Lib.Run
open WatchedAgent.Lib.Text
open WatchedAgent.Model

/-! ### The files -/

/-- `/proc/<pid>/io`. -/
structure IoFile where
  rchar : Nat
  wchar : Nat
  syscr : Nat
  syscw : Nat
  readBytes : Nat
  writeBytes : Nat
  cancelledWriteBytes : Nat

/-- A name and a number, as the kernel prints them. -/
def ioLine (name : String) (n : Nat) : String := name ++ ": " ++ toString n

theorem toList_ioLine (name : String) (n : Nat) :
    (ioLine name n).toList = name.toList ++ ':' :: ' ' :: Nat.toDigits 10 n := by
  rw [ioLine, String.toList_append, String.toList_append, toList_nat, List.append_assoc]
  rfl

namespace IoFile
variable (f : IoFile)

/-- The names and numbers, in order. -/
def entries : List (String × Nat) :=
  [("rchar", f.rchar), ("wchar", f.wchar), ("syscr", f.syscr), ("syscw", f.syscw),
    ("read_bytes", f.readBytes), ("write_bytes", f.writeBytes),
    ("cancelled_write_bytes", f.cancelledWriteBytes)]

/-- The text of the file. -/
def text : String := fileOf (f.entries.map (fun e => ioLine e.1 e.2))

theorem linesOf_text : linesOf f.text = f.entries.map (fun e => ioLine e.1 e.2) := by
  refine linesOf_fileOf (List.forall_mem_map.mpr fun e he => ?_)
  have hnames : ∀ name ∈ ["rchar", "wchar", "syscr", "syscw", "read_bytes", "write_bytes",
      "cancelled_write_bytes"], '\n' ∉ name.toList := by decide
  have hname : '\n' ∉ e.1.toList := hnames e.1 (List.mem_map_of_mem (f := Prod.fst) he)
  have hdigit : '\n' ∉ Nat.toDigits 10 e.2 := not_mem_toDigits isBase_ten (by decide)
  rw [toList_ioLine]
  simp [hdigit, hname]

end IoFile

/-- What a pass finds: distinct PIDs, and the files of the processes. -/
structure IoPass where
  pids : List Nat
  nodup : pids.Nodup
  files : Nat → Option IoFile

def IoPass.toPass (p : IoPass) : ProcPass where
  pids := p.pids
  files := fun pid => { io := (p.files pid).map IoFile.text }

/-- The process shows its file in the pass. -/
def IoPass.Shows (p : IoPass) (pid : Nat) : Prop := pid ∈ p.pids ∧ (p.files pid).isSome = true

/-! ### The lines -/

section Lines

theorem compile_key : Lua.compile "(%a+_%a+)"
    = ⟨[], [⟨Lua.isAlpha, .plus⟩, ⟨(· == '_'), .one⟩, ⟨Lua.isAlpha, .plus⟩]⟩ := rfl

/-- Two words joined by an underscore are the key of the script. -/
theorem luaMatch_key {s : String} {a b rest : List Char} (hs : s.toList = a ++ '_' :: (b ++ rest))
    (ha : a ≠ [] ∧ ∀ c ∈ a, Lua.isAlpha c = true) (hb : b ≠ [] ∧ ∀ c ∈ b, Lua.isAlpha c = true)
    (hrest : ∀ c ∈ rest.head?, Lua.isAlpha c = false) :
    Lua.luaMatch "(%a+_%a+)" s = some (String.ofList (a ++ '_' :: b)) := by
  have htail : Lua.First [⟨(· == '_'), .one⟩, ⟨Lua.isAlpha, .plus⟩] ('_' :: (b ++ rest))
      ('_' :: b, rest) := by
    have hword := Lua.First.plus (l := []) hb.1 hb.2 hrest (Lua.first_nil rest)
    rw [List.append_nil] at hword
    exact Lua.First.one (by decide) hword
  have hmatch := Lua.matchIn_run (a := []) (by simp) ha.1 ha.2 (by simp; decide) htail
  unfold Lua.luaMatch
  rw [compile_key, hs]
  exact congrArg (Option.map String.ofList) hmatch

/-- The number of a line. -/
theorem luaMatch_number {name : String} (hname : ∀ c ∈ name.toList, isDigit c = false) (n : Nat) :
    (Lua.luaMatch "(%d+)" (ioLine name n)).bind tonumber = some (n : ℚ) := by
  have hline : (ioLine name n).toList
      = (name.toList ++ [':', ' ']) ++ (Nat.toDigits 10 n ++ []) := by
    rw [toList_ioLine]
    simp
  refine Lua.luaMatch_number hline (fun c hc => ?_) (by simp)
  rcases List.mem_append.mp hc with hc | hc
  · exact hname c hc
  · have hends : ∀ c ∈ [':', ' '], isDigit c = false := by decide
    exact hends c hc

/-- The other collector cuts the line at its colon. -/
theorem readIoLine_ioLine {name : String} (hname : ':' ∉ name.toList) (n pid : Nat)
    (res : PidRessource) : ServioCollector.readIoLine pid res (ioLine name n)
      = if name = "read_bytes" then res.setPidValue "rd" pid (toUInt32 n)
        else if name = "write_bytes" then res.setPidValue "wt" pid (toUInt32 n)
        else res := by
  have hline := toList_ioLine name n
  have hpos := find_of_split hline hname
  have hkey : String.ofList ((ioLine name n).toList.take name.toList.length) = name := by
    rw [hline, List.take_left, String.ofList_toList]
  have hvalue : (ioLine name n).toList.drop (name.toList.length + 1)
      = [' '] ++ (Nat.toDigits 10 n ++ []) := by
    rw [hline, List.drop_append, List.append_nil]
    simp
  have hnumber : atoi (String.ofList ((ioLine name n).toList.drop (name.toList.length + 1))) = n :=
    atoi_toDigits (by rw [String.toList_ofList, hvalue]) (by decide) (by simp [Ends])
  unfold ServioCollector.readIoLine
  rw [hpos]
  dsimp only
  rw [hkey, hnumber]

/-- A line whose key is not one of the two leaves the script alone. -/
theorem readIoLine_other {name : String} {n : Nat} {pid : Nat} {c : LuaIo × LuaIoLocals}
    (hread : Lua.luaMatch "(%a+_%a+)" (ioLine name n) ≠ some "read_bytes")
    (hwrite : Lua.luaMatch "(%a+_%a+)" (ioLine name n) ≠ some "write_bytes") :
    LuaIo.readIoLine pid c (ioLine name n) = some c := by
  unfold LuaIo.readIoLine
  dsimp only
  rw [if_neg hread, if_neg hwrite]
  rfl

/-- A line without an underscore has no key. -/
theorem luaMatch_ne_of_not_mem {name key : String} {n : Nat} (hname : '_' ∉ name.toList)
    (hkey : '_' ∈ key.toList) : Lua.luaMatch "(%a+_%a+)" (ioLine name n) ≠ some key := by
  intro h
  have hmem := (Lua.infix_of_luaMatch h).subset hkey
  have hdigit : '_' ∉ Nat.toDigits 10 n := not_mem_toDigits isBase_ten (by decide)
  rw [toList_ioLine] at hmem
  simp [hname, hdigit] at hmem

end Lines

/-! ### One process -/

section Process
variable (f : IoFile) (pid : Nat)

/-- The script after the line of the read bytes. -/
def afterRead (n : Nat) (c : LuaIo × LuaIoLocals) : LuaIo × LuaIoLocals :=
  ({ c.1 with reads := Function.update c.1.reads pid (some (n : ℚ)) },
    { c.2 with
        resReads := grown (c.1.reads pid) n c.2.resReads
        found := c.2.found || (c.1.reads pid).isSome })

/-- The script after the line of the written bytes. -/
def afterWrite (n : Nat) (c : LuaIo × LuaIoLocals) : LuaIo × LuaIoLocals :=
  ({ c.1 with writes := Function.update c.1.writes pid (some (n : ℚ)) },
    { c.2 with
        resWrites := grown (c.1.writes pid) n c.2.resWrites
        found := c.2.found || (c.1.writes pid).isSome })

theorem readIoLine_read (n : Nat) (c : LuaIo × LuaIoLocals) :
    LuaIo.readIoLine pid c (ioLine "read_bytes" n) = some (afterRead pid n c) := by
  have hkey : Lua.luaMatch "(%a+_%a+)" (ioLine "read_bytes" n) = some "read_bytes" :=
    luaMatch_key (a := "read".toList) (b := "bytes".toList) (toList_ioLine _ _) (by decide)
      (by decide) (by simp; decide)
  unfold LuaIo.readIoLine
  dsimp only
  rw [luaMatch_number (by decide), hkey, if_pos rfl, luaGrow_some]
  rfl

theorem readIoLine_write (n : Nat) (c : LuaIo × LuaIoLocals) :
    LuaIo.readIoLine pid c (ioLine "write_bytes" n) = some (afterWrite pid n c) := by
  have hkey : Lua.luaMatch "(%a+_%a+)" (ioLine "write_bytes" n) = some "write_bytes" :=
    luaMatch_key (a := "write".toList) (b := "bytes".toList) (toList_ioLine _ _) (by decide)
      (by decide) (by simp; decide)
  unfold LuaIo.readIoLine
  dsimp only
  rw [luaMatch_number (by decide), hkey, if_neg (by decide), if_pos rfl, luaGrow_some]
  rfl

/-- The first two words of the last line are its key, and that is neither. -/
theorem readIoLine_cancelled (n : Nat) (c : LuaIo × LuaIoLocals) :
    LuaIo.readIoLine pid c (ioLine "cancelled_write_bytes" n) = some c := by
  have hkey : Lua.luaMatch "(%a+_%a+)" (ioLine "cancelled_write_bytes" n)
      = some "cancelled_write" :=
    luaMatch_key (a := "cancelled".toList) (b := "write".toList) (toList_ioLine _ _) (by decide)
      (by decide) (by simp; decide)
  exact readIoLine_other (by rw [hkey]; decide) (by rw [hkey]; decide)

/-- The script reads the two lines of a file. -/
theorem foldlM_readIoLine (c : LuaIo × LuaIoLocals) :
    (linesOf f.text).foldlM (LuaIo.readIoLine pid) c
      = some (afterWrite pid f.writeBytes (afterRead pid f.readBytes c)) := by
  have hother : ∀ name n c, '_' ∉ name.toList →
      LuaIo.readIoLine pid c (ioLine name n) = some c := fun name n c h =>
    readIoLine_other (luaMatch_ne_of_not_mem h (by decide)) (luaMatch_ne_of_not_mem h (by decide))
  rw [f.linesOf_text]
  simp only [IoFile.entries, List.map_cons, List.map_nil, List.foldlM_cons, List.foldlM_nil,
    Option.bind_eq_bind, Option.bind_some, hother "rchar" _ _ (by decide),
    hother "wchar" _ _ (by decide), hother "syscr" _ _ (by decide),
    hother "syscw" _ _ (by decide), readIoLine_read, readIoLine_write, readIoLine_cancelled]
  rfl

/-- The other collector reads the same two lines. -/
theorem foldl_readIoLine (res : PidRessource) :
    (linesOf f.text).foldl (ServioCollector.readIoLine pid) res
      = (res.setPidValue "rd" pid (toUInt32 f.readBytes)).setPidValue "wt" pid
          (toUInt32 f.writeBytes) := by
  have hnames : ∀ name ∈ ["rchar", "wchar", "syscr", "syscw", "read_bytes", "write_bytes",
      "cancelled_write_bytes"], ':' ∉ name.toList := by decide
  have hline : ∀ name ∈ ["rchar", "wchar", "syscr", "syscw", "read_bytes", "write_bytes",
      "cancelled_write_bytes"], ∀ n res, ServioCollector.readIoLine pid res (ioLine name n)
      = if name = "read_bytes" then res.setPidValue "rd" pid (toUInt32 n)
        else if name = "write_bytes" then res.setPidValue "wt" pid (toUInt32 n)
        else res := fun name h n res => readIoLine_ioLine (hnames name h) n pid res
  simp only [List.forall_mem_cons, List.not_mem_nil, false_imp_iff, implies_true, and_true]
    at hline
  obtain ⟨h1, h2, h3, h4, h5, h6, h7⟩ := hline
  rw [f.linesOf_text]
  simp only [IoFile.entries, List.map_cons, List.map_nil, List.foldl_cons, List.foldl_nil,
    h1, h2, h3, h4, h5, h6, h7]
  rfl

end Process

/-! ### A pass -/

/-- The names a ressource holds values under. -/
def names (res : PidRessource) : List String := res.values.map Prod.fst

section Pass

theorem mem_names_setPidValue (res : PidRessource) (name key : String) (pid v : Nat) :
    key ∈ names (res.setPidValue name pid v) ↔ key ∈ names res ∨ key = name := by
  show key ∈ (PidRessource.setValue name pid v res.values).map Prod.fst ↔ _
  unfold names
  induction res.values with
  | nil => simp [PidRessource.setValue]
  | cons e l ih =>
      obtain ⟨k, m⟩ := e
      unfold PidRessource.setValue
      by_cases hk : k = name
      · rw [if_pos hk, hk]
        simp only [List.map_cons, List.mem_cons]
        rw [or_right_comm, or_self]
      · rw [if_neg hk]
        simp only [List.map_cons, List.mem_cons]
        rw [ih, or_assoc]

/-- A value that is there stays there. -/
theorem isSome_lookup_setPidValue {res : PidRessource} {key : String}
    (h : (res.v.lookup key).isSome = true) (name : String) (pid v : Nat) :
    ((res.setPidValue name pid v).v.lookup key).isSome = true := by
  unfold PidRessource.setPidValue
  dsimp only
  split
  · split
    · exact MembersOf.isSome_lookup_setProperty h
    · exact h
  · exact h

/-- A new sample has a value under each name. -/
theorem isSome_lookup_nextValue {res : PidRessource} {key : String} (h : key ∈ names res) :
    (res.nextValue.v.lookup key).isSome = true := by
  have hfold : ∀ (l : List (String × PidMap Nat)) (v : Members),
      (v.lookup key).isSome = true ∨ key ∈ l.map Prod.fst →
      ((l.foldl (fun v i => v.setProperty i.1 0) v).lookup key).isSome = true := by
    intro l
    induction l with
    | nil => exact fun v h => h.resolve_right List.not_mem_nil
    | cons e l ih =>
        intro v h
        rw [List.foldl_cons]
        refine ih _ ?_
        rcases h with h | h
        · exact .inl (MembersOf.isSome_lookup_setProperty h)
        · rcases List.mem_cons.mp h with rfl | h
          · rw [MembersOf.lookup_setProperty, if_pos rfl]
            exact .inl rfl
          · exact .inr h
  exact hfold res.values res.v (.inr h)

/-- The files of a pass, as a collector opens them. -/
abbrev opened (files : Nat → Option IoFile) (pid : Nat) : ProcFiles :=
  { io := (files pid).map IoFile.text }

section Turns
variable (files : Nat → Option IoFile)

theorem readProcess_hidden {pid : Nat} (h : files pid = none) (res : PidRessource) :
    ServioCollector.readProcess (opened files) res pid = res := by
  unfold ServioCollector.readProcess opened
  rw [h]
  rfl

theorem readProcess_shown {pid : Nat} {f : IoFile} (h : files pid = some f) (res : PidRessource) :
    ServioCollector.readProcess (opened files) res pid
      = (res.setPidValue "rd" pid (toUInt32 f.readBytes)).setPidValue "wt" pid
          (toUInt32 f.writeBytes) := by
  unfold ServioCollector.readProcess opened
  rw [h]
  exact foldl_readIoLine f pid res

theorem mem_names_readProcess (res : PidRessource) (pid : Nat) :
    "wt" ∈ names (ServioCollector.readProcess (opened files) res pid)
      ↔ "wt" ∈ names res ∨ (files pid).isSome = true := by
  cases h : files pid with
  | none => simp [readProcess_hidden files h]
  | some f => simp [readProcess_shown files h, mem_names_setPidValue]

theorem isSome_lookup_readProcess {res : PidRessource} (h : (res.v.lookup "wt").isSome = true)
    (pid : Nat) :
    ((ServioCollector.readProcess (opened files) res pid).v.lookup "wt").isSome = true := by
  cases hf : files pid with
  | none => exact (readProcess_hidden files hf res).symm ▸ h
  | some f =>
      rw [readProcess_shown files hf]
      exact isSome_lookup_setPidValue (isSome_lookup_setPidValue h _ _ _) _ _ _

/-- The names and the values after the turns of some processes. -/
theorem foldl_readProcess (pids : List Nat) (res : PidRessource) :
    let res' := pids.foldl (ServioCollector.readProcess (opened files)) res
    ("wt" ∈ names res' ↔ "wt" ∈ names res ∨ ∃ pid ∈ pids, (files pid).isSome = true) ∧
      ((res.v.lookup "wt").isSome = true → (res'.v.lookup "wt").isSome = true) := by
  induction pids generalizing res with
  | nil => simp
  | cons pid pids ih =>
      obtain ⟨hnames, hv⟩ := ih (ServioCollector.readProcess (opened files) res pid)
      refine ⟨hnames.trans ?_, fun h => hv (isSome_lookup_readProcess files h pid)⟩
      rw [mem_names_readProcess, List.exists_mem_cons_iff, or_assoc]

end Turns

/-- The script after the turn of a process. -/
def turn (files : Nat → Option IoFile) (c : LuaIo × LuaIoLocals) (pid : Nat) :
    LuaIo × LuaIoLocals :=
  match files pid with
  | none => c
  | some f => afterWrite pid f.writeBytes (afterRead pid f.readBytes c)

theorem readProcess_eq_turn (files : Nat → Option IoFile) (c : LuaIo × LuaIoLocals) (pid : Nat) :
    LuaIo.readProcess (opened files) c pid
      = some (turn files c pid) := by
  unfold LuaIo.readProcess turn
  dsimp only
  cases files pid with
  | none => rfl
  | some f => exact foldlM_readIoLine f pid c

/-- The end of a pass of the script. -/
def published (r : LuaIo × LuaIoLocals) : LuaIo × Bool :=
  if r.2.found then
    let io := r.1.io
      |>.setProperty "rd" r.2.resReads
      |>.setProperty "wr" r.2.resWrites
    ({ r.1 with io }, true)
  else (r.1, false)

/-- A pass of the script does not fail. -/
theorem collect_eq (c : LuaIo) (p : IoPass) :
    c.collect p.toPass = some (published (p.pids.foldl (turn p.files) (c, {}))) := by
  have hfold : p.pids.foldlM (LuaIo.readProcess p.toPass.files) (c, {})
      = some (p.pids.foldl (turn p.files) (c, {})) :=
    foldlM_of_forall fun c pid _ => readProcess_eq_turn p.files c pid
  show (p.pids.foldlM (LuaIo.readProcess p.toPass.files) (c, {})).bind _ = _
  rw [hfold, Option.bind_some]
  unfold published
  dsimp only
  split <;> rfl

/-- The script keeps both numbers of a process, or none. -/
def Balanced (c : LuaIo) : Prop := ∀ pid, (c.reads pid).isSome = (c.writes pid).isSome

section Turn
variable (files : Nat → Option IoFile) (c : LuaIo × LuaIoLocals) (pid : Nat)

theorem io_turn : (turn files c pid).1.io = c.1.io := by
  unfold turn
  split <;> rfl

theorem isSome_reads_turn (q : Nat) : ((turn files c pid).1.reads q).isSome = true
    ↔ (c.1.reads q).isSome = true ∨ q = pid ∧ (files q).isSome = true := by
  unfold turn
  by_cases hq : q = pid
  · subst hq
    cases hfile : files q <;> simp [afterWrite, afterRead]
  · cases files pid <;> simp [afterWrite, afterRead, hq]

theorem balanced_turn {c : LuaIo × LuaIoLocals} (h : Balanced c.1) :
    Balanced (turn files c pid).1 := by
  intro q
  unfold turn
  by_cases hq : q = pid
  · subst hq
    cases files q with
    | none => exact h q
    | some f => simp [afterWrite, afterRead]
  · cases files pid with
    | none => exact h q
    | some f => simpa [afterWrite, afterRead, hq] using h q

theorem found_turn {c : LuaIo × LuaIoLocals} (h : Balanced c.1) :
    (turn files c pid).2.found = true ↔ c.2.found = true ∨
      (files pid).isSome = true ∧ (c.1.reads pid).isSome = true := by
  have hpid := h pid
  unfold turn
  cases files pid with
  | none => simp
  | some f =>
      show (c.2.found || (c.1.reads pid).isSome || (c.1.writes pid).isSome) = true ↔ _
      rw [← hpid, Bool.or_assoc, Bool.or_self, Bool.or_eq_true]
      simp

end Turn

/-- The tables after the turns of some processes. -/
theorem foldl_turn (files : Nat → Option IoFile) (pids : List Nat) (c : LuaIo × LuaIoLocals)
    (h : Balanced c.1) :
    let c' := pids.foldl (turn files) c
    Balanced c'.1 ∧ c'.1.io = c.1.io ∧ ∀ q, (c'.1.reads q).isSome = true
      ↔ (c.1.reads q).isSome = true ∨ q ∈ pids ∧ (files q).isSome = true := by
  induction pids generalizing c with
  | nil => exact ⟨h, rfl, by simp⟩
  | cons pid pids ih =>
      obtain ⟨hbalanced, hio, hreads⟩ := ih (turn files c pid) (balanced_turn files pid h)
      refine ⟨hbalanced, hio.trans (io_turn files c pid), fun q => ?_⟩
      rw [List.foldl_cons, hreads, isSome_reads_turn, List.mem_cons, or_assoc, or_and_right]

/-- A sample is made for a process that was seen before the pass. -/
theorem found_foldl_turn (files : Nat → Option IoFile) {pids : List Nat} (hpids : pids.Nodup)
    (c : LuaIo × LuaIoLocals) (h : Balanced c.1) :
    (pids.foldl (turn files) c).2.found = true ↔ c.2.found = true ∨
      ∃ pid ∈ pids, (files pid).isSome = true ∧ (c.1.reads pid).isSome = true := by
  induction pids generalizing c with
  | nil => simp
  | cons pid pids ih =>
      obtain ⟨hpid, hpids⟩ := List.nodup_cons.mp hpids
      -- The turn of `pid` leaves the numbers of the others.
      have hother : ∀ q ∈ pids, (((turn files c pid).1.reads q).isSome = true
          ↔ (c.1.reads q).isSome = true) := by
        intro q hq
        have hne : q ≠ pid := fun heq => hpid (heq ▸ hq)
        rw [isSome_reads_turn]
        simp [hne]
      rw [List.foldl_cons, ih hpids _ (balanced_turn files pid h), found_turn files pid h,
        List.exists_mem_cons_iff, or_assoc]
      refine or_congr_right (or_congr_right ?_)
      refine exists_congr fun q => and_congr_right fun hq => and_congr_right fun _ => hother q hq

end Pass

/-! ### Runs -/

/-- The two collectors. -/
structure World where
  res : PidRessource := {}
  lua : LuaIo := {}

/-- Both collectors make a pass. -/
def step (w : World) (p : IoPass) : World where
  res := (ServioCollector.collect w.res p.toPass).1
  lua := ((w.lua.collect p.toPass).map Prod.fst).getD w.lua

/-- If both collectors make a sample in the pass, the declared properties are equal. -/
def SamplesAgree (w : World) (p : IoPass) : Prop :=
  (ServioCollector.collect w.res p.toPass).2 = true →
    ∀ lua, w.lua.collect p.toPass = some (lua, true) →
      ∀ name ∈ ServioCollector.properties,
        (ServioCollector.collect w.res p.toPass).1.v.lookup name = lua.io.lookup name

/-- No process that the script has seen shows its file in the pass. -/
def Fresh (w : World) (p : IoPass) : Prop :=
  ∀ pid, (w.lua.reads pid).isSome = true → ¬ p.Shows pid

/-- What holds between passes. -/
structure Inv (w : World) : Prop where
  balanced : Balanced w.lua
  seen : ∀ pid, (w.lua.reads pid).isSome = true → "wt" ∈ names w.res
  unwritten : w.lua.io.lookup "wt" = none

section Step
variable {w : World} {p : IoPass}

/-- The state of the script after a pass. -/
theorem lua_step (hinv : Inv w) :
    Balanced (step w p).lua ∧ (step w p).lua.io.lookup "wt" = none ∧
      ∀ pid, ((step w p).lua.reads pid).isSome = true
        ↔ (w.lua.reads pid).isSome = true ∨ p.Shows pid := by
  obtain ⟨hbalanced, hio, hreads⟩ := foldl_turn p.files p.pids (w.lua, {}) hinv.balanced
  have hwt : (p.pids.foldl (turn p.files) (w.lua, {})).1.io.lookup "wt" = none := by
    rw [hio]
    exact hinv.unwritten
  unfold step
  dsimp only
  rw [collect_eq, Option.map_some, Option.getD_some, published]
  split
  · refine ⟨hbalanced, ?_, hreads⟩
    show (MembersOf.setProperty "wr" _ (MembersOf.setProperty "rd" _ _)).lookup "wt" = none
    rw [MembersOf.lookup_setProperty, MembersOf.lookup_setProperty, if_neg (by decide),
      if_neg (by decide), hwt]
  · exact ⟨hbalanced, hwt, hreads⟩

theorem inv_step (hinv : Inv w) : Inv (step w p) := by
  obtain ⟨hbalanced, hwt, hreads⟩ := lua_step (p := p) hinv
  have hnames := (foldl_readProcess p.files p.pids w.res.nextValue).1
  refine ⟨hbalanced, fun pid hpid => ?_, hwt⟩
  -- A process is in the tables of both collectors, or of none.
  show "wt" ∈ names (ServioCollector.collect w.res p.toPass).1
  refine hnames.mpr ?_
  rcases (hreads pid).mp hpid with hseen | hshows
  · exact .inl (hinv.seen pid hseen)
  · exact .inr ⟨pid, hshows.1, hshows.2⟩

/-- Where values were set before, the other collector makes a sample, and it has a `wt`. -/
theorem publishes_of_mem_names (h : "wt" ∈ names w.res) :
    (ServioCollector.collect w.res p.toPass).2 = true ∧
      ((ServioCollector.collect w.res p.toPass).1.v.lookup "wt").isSome = true := by
  constructor
  · show (!w.res.values.isEmpty) = true
    rw [Bool.not_eq_true', List.isEmpty_eq_false_iff]
    intro hempty
    simp [names, hempty] at h
  · exact (foldl_readProcess p.files p.pids w.res.nextValue).2 (isSome_lookup_nextValue h)

/-- The samples of a pass agree exactly when the script makes none. -/
theorem samplesAgree_iff_fresh (hinv : Inv w) : SamplesAgree w p ↔ Fresh w p := by
  have hfound := found_foldl_turn p.files p.nodup (w.lua, {}) hinv.balanced
  have hcollect := collect_eq w.lua p
  have hwt := (lua_step (p := p) hinv).2.1
  unfold published at hcollect
  by_cases hfresh : Fresh w p
  · have hnone : (p.pids.foldl (turn p.files) (w.lua, {})).2.found ≠ true := by
      rw [Ne, hfound]
      rintro (h | ⟨pid, hpid, hfile, hseen⟩)
      · exact Bool.false_ne_true h
      · exact hfresh pid hseen ⟨hpid, hfile⟩
    refine iff_of_true (fun _ lua hlua => ?_) hfresh
    rw [hcollect, if_neg hnone] at hlua
    exact absurd (congrArg Prod.snd (Option.some.inj hlua)) Bool.false_ne_true
  · refine iff_of_false (fun hagree => ?_) hfresh
    obtain ⟨pid, hseen, hshows⟩ : ∃ pid, (w.lua.reads pid).isSome = true ∧ p.Shows pid := by
      unfold Fresh at hfresh
      push Not at hfresh
      exact hfresh
    have hsome : (p.pids.foldl (turn p.files) (w.lua, {})).2.found = true :=
      hfound.mpr (.inr ⟨pid, hshows.1, hshows.2, hseen⟩)
    rw [if_pos hsome] at hcollect
    obtain ⟨hpublish, hvalue⟩ := publishes_of_mem_names (p := p) (hinv.seen pid hseen)
    have heq := hagree hpublish _ hcollect "wt" (by decide)
    have hnone : (step w p).lua.io.lookup "wt" = none := hwt
    unfold step at hnone
    rw [hcollect, Option.map_some, Option.getD_some] at hnone
    rw [heq, hnone] at hvalue
    exact absurd hvalue Bool.false_ne_true

end Step

theorem inv_start : Inv {} := ⟨fun _ => rfl, fun _ h => absurd h (by simp), rfl⟩

/-- The script has seen the processes that showed their file in some pass. -/
theorem seen_exec (as : List IoPass) :
    Inv (Run.exec step {} as) ∧ ∀ pid,
      ((Run.exec step {} as).lua.reads pid).isSome = true ↔ ∃ p ∈ as, p.Shows pid := by
  let I (taken : List IoPass) (w : World) : Prop :=
    Inv w ∧ ∀ pid, (w.lua.reads pid).isSome = true ↔ ∃ p ∈ taken, p.Shows pid
  have hstep : ∀ taken w, ∀ p ∈ as, I taken w → True → I (taken ++ [p]) (step w p) := by
    rintro taken w p - ⟨hinv, hseen⟩ -
    refine ⟨inv_step hinv, fun pid => ?_⟩
    rw [(lua_step hinv).2.2, hseen]
    simp [or_and_right, exists_or]
  have hstart : I [] {} := ⟨inv_start, by simp⟩
  exact exec_history (C := fun _ _ => True) {} as hstep hstart
    ((meets_iff_forall_split _ _ _ _).mpr fun _ _ _ _ => trivial)

/-- The samples of a run agree exactly when no process shows its file in two passes. -/
theorem ioSamples_agree_iff (as : List IoPass) :
    Meets step SamplesAgree {} as ↔ ∀ pre p post, as = pre ++ p :: post →
      ∀ pid, p.Shows pid → ∀ q ∈ pre, ¬ q.Shows pid := by
  have hfresh : Meets step SamplesAgree {} as ↔ Meets step Fresh {} as :=
    meets_iff_meets (I := Inv) (C := Fresh) (L := fun _ _ => True)
      (fun _ _ hinv _ => samplesAgree_iff_fresh hinv) (fun _ _ hinv _ _ => inv_step hinv)
      {} as inv_start
      ((meets_iff_forall_split _ _ _ _).mpr fun _ _ _ _ => trivial)
  rw [hfresh, meets_iff_forall_split]
  refine forall_congr' fun pre => forall_congr' fun p => forall_congr' fun post =>
    imp_congr_right fun _ => ?_
  have hseen := (seen_exec pre).2
  constructor
  · intro h pid hshows q hq hbefore
    exact h pid ((hseen pid).mpr ⟨q, hq, hbefore⟩) hshows
  · intro h pid hreads hshows
    obtain ⟨q, hq, hbefore⟩ := (hseen pid).mp hreads
    exact h pid hshows q hq hbefore

/-! ### A run of two passes -/

/-- A pass that finds one process, which has written some bytes. -/
def writer (n : Nat) : IoPass where
  pids := [20]
  nodup := List.nodup_cons.mpr ⟨List.not_mem_nil, List.nodup_nil⟩
  files := fun _ => some ⟨0, n, 0, 1, 0, n, 0⟩

/-- In the second pass the script publishes no `wt`. -/
theorem not_samplesAgree_two_passes :
    ¬ ∀ as : List IoPass, Meets step SamplesAgree {} as := by
  intro h
  have hagree : SamplesAgree (step {} (writer 0)) (writer 4096) := (h [writer 0, writer 4096]).2.1
  have hfresh := (samplesAgree_iff_fresh (inv_step inv_start)).mp hagree
  have hshows : ∀ n, (writer n).Shows 20 := fun n => ⟨List.mem_singleton_self 20, rfl⟩
  exact hfresh 20 (((lua_step inv_start).2.2 20).mpr (.inr (hshows 0))) (hshows 4096)

end WatchedAgent.Proofs.IoCollectors
