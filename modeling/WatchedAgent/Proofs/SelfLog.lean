import WatchedAgent.Lib.Run
import WatchedAgent.Lib.Words
import WatchedAgent.Model.AgentLog
import WatchedAgent.Proofs.LogWindow

/-!
# `WatchedAgent.Proofs.SelfLog`: the agent reads its own log

The agent writes its messages with `log::write`, and the service of the agent has this file as a
log, with `luaServices/self.lua` as its parser. A run interleaves the two. The file may have lines
from earlier runs of the agent.

* `line_eq`: the line of a message, part by part.
* `getDate_line`: the script finds the time of a message.
* `getLevel_line`: it reports a message for its level, or for a level word in its text.
* `self_log`: the history after any run. Only the first poll that finds lines reads any, since the
  parser loses its position then.
-/

set_option autoImplicit false

namespace WatchedAgent.Proofs.SelfLog

open WatchedAgent.Lib
open WatchedAgent.Lib.Run
open WatchedAgent.Lib.Text
open WatchedAgent.Model
open WatchedAgent.Proofs.LogWindow

/-! ### Messages -/

/-- The characters of a time `%d-%m-%Y %H:%M:%S`. -/
def timeChars : List Char := "0123456789-: ".toList

/-- A call of `log::write`. -/
structure Call where
  buffer : String
  p_lvl : Nat
  p_src : String
  p_message : String
  buffer_time : ∀ c ∈ buffer.toList, c ∈ timeChars
  p_lvl_lt : p_lvl < AgentLog.levels.length
  p_src_line : '\n' ∉ p_src.toList
  p_message_line : '\n' ∉ p_message.toList

/-- The name of its level. -/
def Call.name (c : Call) : String := AgentLog.levels[c.p_lvl]?.getD ""

/-- The line of a call. -/
def Call.line (c : Call) : List Char := AgentLog.line c.buffer c.p_lvl c.p_src c.p_message

/-- A text of the call has the word. -/
def Call.Has (c : Call) (word : String) : Prop :=
  word.toList <:+: c.p_src.toList ∨ word.toList <:+: c.p_message.toList

instance (c : Call) (word : String) : Decidable (c.Has word) :=
  inferInstanceAs (Decidable (_ ∨ _))

/-- What a call is reported as. -/
def Call.reported (c : Call) : Option String :=
  if c.p_lvl = 1 ∨ c.Has "ERROR" then some "error"
  else if c.p_lvl = 2 ∨ c.Has "WARN" then some "warning"
  else none

/-! ### The line -/

/-- The parts of a line, between its blanks. -/
theorem line_eq (c : Call) :
    c.line = ['['] ++ ' ' :: (c.buffer.toList ++ ' ' :: (['|'] ++ ' ' ::
      (c.name.toList.leftpad 6 ' ' ++ ' ' :: ([']'] ++ ' ' ::
        (c.p_src.toList.leftpad 30 ' ' ++ ' ' :: (['-'] ++ ' ' :: c.p_message.toList)))))) := by
  have hpad : ∀ cs : List Char, cs.leftpad 0 ' ' = cs := by
    intro cs
    rw [List.leftpad, Nat.zero_sub]
    rfl
  show ((((((([] ++ _ : List Char) ++ _) ++ _) ++ _) ++ _) ++ _) ++ _) ++ _ = _
  simp only [hpad, Call.name, OStream.pad, OStream.setw]
  simp

/-- A word is in the line where it is in the name of the level or in a text of the call: the rest
of the line has other characters. -/
theorem finds_line (c : Call) {word : String} (hne : word.toList ≠ [])
    (hword : ∀ x ∈ word.toList, x ∉ "[|]".toList ++ timeChars) :
    LogScripts.finds c.line word = true ↔ word.toList <:+: c.name.toList ∨ c.Has word := by
  have hblank : ' ' ∉ word.toList := fun h => hword _ h (by decide)
  -- What consists of the other characters has no such word.
  have hother : ∀ a : List Char, (∀ x ∈ a, x ∈ "[|]".toList ++ timeChars) →
      (word.toList <:+: a ↔ False) := by
    intro a ha
    refine iff_false_intro fun h => ?_
    obtain ⟨x, hx⟩ := List.exists_mem_of_ne_nil _ hne
    exact hword x hx (ha x (h.subset hx))
  have htime : word.toList <:+: c.buffer.toList ↔ False :=
    hother _ fun x hx => List.mem_append_right _ (c.buffer_time x hx)
  show contains (String.ofList c.line) word = true ↔ _
  rw [contains_iff, String.toList_ofList, line_eq]
  simp only [infix_blank_iff hblank, infix_leftpad_iff hblank hne, htime,
    hother ['['] (by decide), hother ['|'] (by decide), hother [']'] (by decide),
    hother ['-'] (by decide), false_or, Call.Has]

/-- The level words that the names of the levels have. -/
theorem infix_name_iff (c : Call) :
    ("ERROR".toList <:+: c.name.toList ↔ c.p_lvl = 1) ∧
      ("WARN".toList <:+: c.name.toList ↔ c.p_lvl = 2) := by
  have hall : ∀ lvl < AgentLog.levels.length,
      ("ERROR".toList <:+: (AgentLog.levels[lvl]?.getD "").toList ↔ lvl = 1) ∧
        ("WARN".toList <:+: (AgentLog.levels[lvl]?.getD "").toList ↔ lvl = 2) := by decide
  exact hall c.p_lvl c.p_lvl_lt

/-- The level that the script gives a message. -/
theorem getLevel_line (c : Call) :
    LogScripts.self.getLevel c.line
      = if c.p_lvl = 1 ∨ c.Has "ERROR" then 4 else if c.p_lvl = 2 ∨ c.Has "WARN" then 3 else 0 := by
  have herror : LogScripts.finds c.line "ERROR" = true ↔ c.p_lvl = 1 ∨ c.Has "ERROR" := by
    rw [finds_line c (by decide) (by decide), (infix_name_iff c).1]
  have hwarn : LogScripts.finds c.line "WARN" = true ↔ c.p_lvl = 2 ∨ c.Has "WARN" := by
    rw [finds_line c (by decide) (by decide), (infix_name_iff c).2]
  unfold LogScripts.self
  simp only [herror, hwarn]

/-- The date of a message: the text between the first `[` and the next `|`. -/
theorem getDate_line (c : Call) :
    LogScripts.self.getDate c.line = " " ++ c.buffer ++ " " := by
  have hbar : '|' ∉ ' ' :: (c.buffer.toList ++ [' ']) := by
    intro h
    rcases List.mem_cons.mp h with h | h
    · exact absurd h (by decide)
    · rcases List.mem_append.mp h with h | h
      · exact absurd (c.buffer_time _ h) (by decide)
      · exact absurd h (by decide)
  have hmatch : ∀ rest : List Char, Lua.lazyMatch '[' '|'
      (['['] ++ ' ' :: (c.buffer.toList ++ ' ' :: (['|'] ++ ' ' :: rest)))
      = some (' ' :: (c.buffer.toList ++ [' '])) := by
    intro rest
    have h := Lua.lazyMatch_of_split (l := '[') (a := []) (c := ' ' :: rest) (by simp) hbar
    simpa using h
  show LogScripts.dateOf (Lua.lazyMatch '[' '|' c.line) = _
  rw [line_eq, hmatch]
  apply String.ext
  simp [LogScripts.dateOf]

/-- A line of the file. -/
theorem not_mem_line (c : Call) : '\n' ∉ c.line := by
  have hname : ∀ lvl < AgentLog.levels.length, '\n' ∉ (AgentLog.levels[lvl]?.getD "").toList := by
    decide
  have htime : '\n' ∉ c.buffer.toList := fun h => absurd (c.buffer_time _ h) (by decide)
  rw [line_eq]
  simp [htime, Call.name, hname c.p_lvl c.p_lvl_lt, c.p_src_line, c.p_message_line]

/-! ### Runs -/

/-- The messages up to the level. -/
def shown (level : Nat) (calls : List Call) : List Call := calls.filter (·.p_lvl ≤ level)

/-- The lines of some calls. -/
def linesOf (calls : List Call) : List Line := calls.map fun c => ⟨c.line, not_mem_line c⟩

/-- A step of a run: the agent writes a message, or the parser of its log polls. -/
inductive Step where
  | write (c : Call)
  | poll

/-- The log and its parser. There is no file before the first message. -/
structure World where
  file : Option (List Char) := none
  parser : LogParser := {}

section Runs
variable (level : Nat) (setup : LogSetup)

/-- One step of a run. -/
def step (w : World) : Step → World
  | .write c =>
      if level < c.p_lvl then w
      else { w with file := some (w.file.getD []
        ++ AgentLog.write level c.buffer c.p_lvl c.p_src c.p_message) }
  | .poll => { w with parser := (w.parser.parseLog setup w.file).1 }

/-- The file with the lines of some calls. -/
def fileOf (calls : List Call) : Option (List Char) :=
  if calls = [] then none else some (fileText (linesOf calls))

/-- The messages that the parser sees: those in the file at the first poll that finds one. -/
def seen (old : List Call) : List Step → List Call
  | [] => []
  | .write c :: steps => seen (old ++ shown level [c]) steps
  | .poll :: steps => if old = [] then seen [] steps else old

/-- The parser after the poll that read some messages. -/
def readAt (calls : List Call) : LogParser :=
  if calls = [] then {}
  else { (calls.map Call.line).foldl (LogParser.handleLine setup) {} with pos := -1 }

/-- There is no file before the first message. -/
theorem fileOf_nil : fileOf [] = none := if_pos rfl

/-- One more line. -/
theorem fileOf_append (old : List Call) (c : Call) :
    fileOf (old ++ [c]) = some ((fileOf old).getD [] ++ (c.line ++ ['\n'])) := by
  have hfile : (fileOf old).getD [] = fileText (linesOf old) := by
    unfold fileOf
    split
    · rename_i hnil
      rw [hnil]
      rfl
    · rfl
  have hlines : fileText (linesOf (old ++ [c])) = fileText (linesOf old) ++ (c.line ++ ['\n']) := by
    unfold linesOf fileText
    rw [List.map_append, List.flatMap_append]
    simp
  rw [hfile, ← hlines, fileOf, if_neg (by simp)]

/-- A message makes the file longer by its line. -/
theorem step_write (old : List Call) (p : LogParser) (c : Call) :
    step level setup { file := fileOf old, parser := p } (.write c)
      = { file := fileOf (old ++ shown level [c]), parser := p } := by
  by_cases hlevel : level < c.p_lvl
  · have hshown : shown level [c] = [] := List.filter_cons_of_neg (by simpa using hlevel)
    rw [step, if_pos hlevel, hshown, List.append_nil]
  · have hshown : shown level [c] = [c] := List.filter_cons_of_pos (by simpa using hlevel)
    have htext : AgentLog.write level c.buffer c.p_lvl c.p_src c.p_message = c.line ++ ['\n'] :=
      if_neg hlevel
    rw [step, if_neg hlevel, hshown, htext, fileOf_append]

/-- A poll before any message does nothing, and a poll of a file with lines reads all of them. -/
theorem step_poll (old : List Call) :
    step level setup { file := fileOf old } .poll
      = { file := fileOf old, parser := readAt setup old } := by
  rw [step, readAt, fileOf]
  split
  · rfl
  · rename_i hold
    have hlines : linesOf old ≠ [] := fun h => hold (List.map_eq_nil_iff.mp h)
    have hread := LogParser.parseLog_of_start setup {} (linesOf old) hlines rfl
    have hval : (linesOf old).map Subtype.val = old.map Call.line := by
      rw [linesOf, List.map_map]
      rfl
    rw [hread, hval]

/-- The parser has lost its position, so nothing changes any more. -/
theorem exec_of_lost {w : World} (hpos : w.parser.pos = -1) (steps : List Step) :
    (exec (step level setup) w steps).parser = w.parser := by
  induction steps generalizing w with
  | nil => rfl
  | cons a steps ih =>
      have hstep : (step level setup w a).parser = w.parser := by
        cases a with
        | write c =>
            rw [step]
            split <;> rfl
        | poll =>
            rw [step]
            cases w.file with
            | none => rfl
            | some content => rw [LogParser.parseLog_of_lost setup w.parser content hpos]
      rw [exec_cons, ih (hstep ▸ hpos), hstep]

/-- The parser after a run. -/
theorem parser_exec (old : List Call) (steps : List Step) :
    (exec (step level setup) { file := fileOf old } steps).parser
      = readAt setup (seen level old steps) := by
  induction steps generalizing old with
  | nil => rfl
  | cons a steps ih =>
      rw [exec_cons]
      cases a with
      | write c =>
          rw [step_write, seen]
          exact ih _
      | poll =>
          rw [step_poll, seen]
          split
          · rename_i hold
            subst hold
            exact ih []
          · rename_i hold
            have hpos : (readAt setup old).pos = -1 := by rw [readAt, if_neg hold]
            exact exec_of_lost level setup (w := ⟨fileOf old, readAt setup old⟩) hpos steps

end Runs

/-! ### The history -/

/-- The entry of a message with its line number. -/
def entry (clock : Nat → Nat) (e : Call × Nat) : Option LogEntry :=
  e.1.reported.map fun level =>
    { timestamp := clock e.2, dateMark := " " ++ e.1.buffer ++ " ", lineNo := e.2, text := e.1.line,
      level := level }

/-- The script reports the message. -/
theorem entryOf_line (history : Nat) (clock : Nat → Nat) (c : Call) (no : Nat) :
    entryOf (LogScripts.self.setup history clock) (c.line, no) = entry clock (c, no) := by
  have hdate : " " ++ c.buffer ++ " " ≠ "" := by
    intro h
    have hlist := congrArg String.toList h
    rw [String.toList_append, String.toList_append] at hlist
    simp at hlist
  have hstate : LogScripts.self.haveState = true := rfl
  rw [entryOf_lua, getLevel_line, getDate_line, entry, Call.reported]
  by_cases herror : c.p_lvl = 1 ∨ c.Has "ERROR"
  · simp [herror, hdate, hstate, Level.ofInt, Level.text]
  · by_cases hwarn : c.p_lvl = 2 ∨ c.Has "WARN"
    · simp [herror, hwarn, hdate, hstate, Level.ofInt, Level.text]
    · simp [herror, hwarn]

/-- In every run of the agent with the service of its own log, the history of the log has the
messages of the file as it was at the first poll that found one: those up to the level of the log
that are of the level error or warning or have such a word, the last one first, at most `history`
of them, each with its number, its time and its line. No later message is ever reported. -/
theorem self_log (level history : Nat) (clock : Nat → Nat) (old : List Call) (steps : List Step) :
    let setup := LogScripts.self.setup history clock
    let p := (exec (step level setup) { file := fileOf old } steps).parser
    p.v = (((seen level old steps).zipIdx 1).filterMap (entry clock)).reverse.take history := by
  have hempty : ({} : LogParser).v.length ≤ (LogScripts.self.setup history clock).history :=
    Nat.zero_le _
  have hentry : entryOf (LogScripts.self.setup history clock) ∘ Prod.map Call.line id
      = entry clock := by
    funext e
    rw [Function.comp_apply, Prod.map_apply', id, entryOf_line]
  have hentries : entriesOf (LogScripts.self.setup history clock) 0
      ((seen level old steps).map Call.line)
      = ((seen level old steps).zipIdx 1).filterMap (entry clock) := by
    rw [entriesOf, List.zipIdx_map, List.filterMap_map, hentry]
  have hv := foldl_handleLine_v _ hempty ((seen level old steps).map Call.line)
  rw [hentries, List.append_nil] at hv
  dsimp only
  rw [parser_exec, readAt]
  split
  · rename_i hnone
    simp [hnone]
  · exact hv

/-- An error of the agent. -/
def diskFull : Call where
  buffer := "01-02-2024 10:00:00"
  p_lvl := 1
  p_src := "Storage::write"
  p_message := "disk full"
  buffer_time := by decide
  p_lvl_lt := by decide
  p_src_line := by decide
  p_message_line := by decide

/-- A notice that has the word of a level. -/
def tryAgain : Call where
  buffer := "01-02-2024 10:00:07"
  p_lvl := 3
  p_src := "Storage::write"
  p_message := "after WARN: written"
  buffer_time := by decide
  p_lvl_lt := by decide
  p_src_line := by decide
  p_message_line := by decide

/-- Two messages and two polls: the first poll that finds a message reads both of them when it comes
after both, and only one when it comes between them. -/
theorem self_log_diskFull :
    (exec (step 3 (LogScripts.self.setup 20 id)) {}
        [.poll, .write diskFull, .write tryAgain, .poll]).parser.v
      = [{ timestamp := 2, dateMark := " 01-02-2024 10:00:07 ", lineNo := 2, text := tryAgain.line,
           level := "warning" },
         { timestamp := 1, dateMark := " 01-02-2024 10:00:00 ", lineNo := 1, text := diskFull.line,
           level := "error" }] ∧
    (exec (step 3 (LogScripts.self.setup 20 id)) {}
        [.write diskFull, .poll, .write tryAgain, .poll]).parser.v
      = [{ timestamp := 1, dateMark := " 01-02-2024 10:00:00 ", lineNo := 1, text := diskFull.line,
           level := "error" }] := by
  have hboth := self_log 3 20 id [] [.poll, .write diskFull, .write tryAgain, .poll]
  have hfirst := self_log 3 20 id [] [.write diskFull, .poll, .write tryAgain, .poll]
  rw [fileOf_nil] at hboth hfirst
  rw [hboth, hfirst]
  decide +kernel

end WatchedAgent.Proofs.SelfLog
