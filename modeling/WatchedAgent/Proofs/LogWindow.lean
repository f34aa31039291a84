import WatchedAgent.Lib.History
import WatchedAgent.Model.LogParser

/-!
# `WatchedAgent.Proofs.LogWindow`: the entries one call of `parseLog` leaves

`parseLog` inserts an entry for each reportable line at the front of the list and cuts the
list at once. `entryOf` is the entry of a line, by itself: it does not depend on the entry
it started from.

* `foldl_handleLine_v`: the list after some lines.
* `parseLog_window`: the list after a call.
* `entryOf_lua`: the reportable lines, for a parser whose levels come from a script.
-/

set_option autoImplicit false

namespace WatchedAgent.Proofs.LogWindow

open WatchedAgent.Lib
open WatchedAgent.Lib.History
open WatchedAgent.Model

section Window
variable (setup : LogSetup)

/-- The entry of a line with its number, if the line is reportable. -/
def entryOf (line : List Char × Nat) : Option LogEntry :=
  if setup.getLevel line.1 ≠ .ok ∧ setup.getDate line.1 ≠ "" then
    some {
      timestamp := setup.clock line.2
      dateMark := setup.getDate line.1
      lineNo := line.2
      text := line.1
      level := (setup.getLevel line.1).text }
  else none

/-- The entries of some lines, the first of which has the number `no + 1`. -/
def entriesOf (no : Nat) (lines : List (List Char)) : List LogEntry :=
  (lines.zipIdx (no + 1)).filterMap (entryOf setup)

/-- A line is counted, and its entry comes first. -/
theorem handleLine_eq {p : LogParser} (h : p.v.length ≤ setup.history) (line : List Char) :
    p.handleLine setup line
      = { p with
          v := ((entryOf setup (line, p.lineNo + 1)).toList ++ p.v).take setup.history
          lineNo := p.lineNo + 1 } := by
  have hcut : ∀ v : List LogEntry,
      (if v.length > setup.history then v.take setup.history else v) = v.take setup.history := by
    intro v
    split
    · rfl
    · exact (List.take_of_length_le (by omega)).symm
  have hsame : p.v.take setup.history = p.v := List.take_of_length_le h
  unfold LogParser.handleLine entryOf
  dsimp only
  by_cases hlevel : setup.getLevel line = .ok
  · rw [if_pos hlevel, if_neg fun hboth => hboth.1 hlevel, Option.toList_none, List.nil_append,
      hsame]
  · rw [if_neg hlevel]
    by_cases hdate : setup.getDate line = ""
    · rw [if_pos hdate, if_neg fun hboth => hboth.2 hdate, Option.toList_none, List.nil_append,
        hsame]
    · -- All fields of the copy are overwritten.
      rw [if_neg hdate, hcut, if_pos ⟨hlevel, hdate⟩]
      rfl

/-- The list after some lines: their entries, the last one first, before the old list. -/
theorem foldl_handleLine_v {p : LogParser} (h : p.v.length ≤ setup.history)
    (lines : List (List Char)) :
    (lines.foldl (LogParser.handleLine setup) p).v
      = ((entriesOf setup p.lineNo lines).reverse ++ p.v).take setup.history := by
  induction lines generalizing p with
  | nil => exact (List.take_of_length_le h).symm
  | cons line lines ih =>
      have hentries : entriesOf setup p.lineNo (line :: lines)
          = (entryOf setup (line, p.lineNo + 1)).toList ++ entriesOf setup (p.lineNo + 1) lines := by
        unfold entriesOf
        rw [List.zipIdx_cons, List.filterMap_cons]
        cases entryOf setup (line, p.lineNo + 1) <;> rfl
      have hreverse : ∀ e : Option LogEntry, e.toList.reverse = e.toList := by
        intro e
        cases e <;> rfl
      rw [List.foldl_cons, handleLine_eq setup h, ih (List.length_take_le _ _), take_append_take,
        hentries, List.reverse_append, hreverse, List.append_assoc]

/-- The number of the last line before those that a call reads: the file starts anew where it
is shorter than the saved position. -/
def linesBefore (p : LogParser) (infile : Option (List Char)) : Nat :=
  match infile with
  | none => p.lineNo
  | some content => if (content.length : Int) < p.pos then 0 else p.lineNo

/-- After a call of `parseLog` the list holds the first `history` of the new entries, the last
one first, and the old entries. -/
theorem parseLog_window (p : LogParser) (infile : Option (List Char))
    (h : p.v.length ≤ setup.history) :
    let result := p.parseLog setup infile
    result.1.v = ((entriesOf setup (linesBefore p infile) result.2).reverse ++ p.v).take
      setup.history := by
  have hsame : p.v = ((entriesOf setup (linesBefore p infile) []).reverse ++ p.v).take
      setup.history := (List.take_of_length_le h).symm
  unfold LogParser.parseLog linesBefore
  cases infile with
  | none => exact hsame
  | some content =>
      have hsize : (IStream.openAte content).tellg = content.length := rfl
      dsimp only
      rw [hsize]
      split
      · exact hsame
      · split
        · exact foldl_handleLine_v setup (p := { p with pos := 0, lineNo := 0 }) h _
        · exact foldl_handleLine_v setup h _

end Window

/-- A line is reportable for a script if it is there, gives a level other than 0, and a date.
The level of an entry is one of the five names, for any number. -/
theorem entryOf_lua (lua : LuaParser) (history : Nat) (clock : Nat → Nat)
    (line : List Char × Nat) : entryOf (lua.setup history clock) line =
      if lua.haveState = true ∧ lua.getLevel line.1 ≠ 0 ∧ lua.getDate line.1 ≠ "" then
        some {
          timestamp := clock line.2
          dateMark := lua.getDate line.1
          lineNo := line.2
          text := line.1
          level := (Level.ofInt (lua.getLevel line.1)).text }
      else none := by
  have hok : ∀ n, Level.ofInt n = .ok ↔ n = 0 := by
    intro n
    unfold Level.ofInt
    split <;> simp_all
  unfold entryOf LuaParser.setup
  dsimp only
  cases lua.haveState with
  | false => simp
  | true => simp [hok]

/-- A parser that reports the lines with an `e`. -/
def errorSetup : LogSetup where
  getLevel line := if 'e' ∈ line then .error else .ok
  getDate _ := "Oct 11"
  history := 2
  clock n := 1000 + n

/-- Four lines are handed over, and the last two of the three reportable ones remain. -/
theorem parseLog_window_errors :
    let result := LogParser.parseLog errorSetup {} (some "e1\ne2\nok\ne3\n".toList)
    result.2 = ["e1".toList, "e2".toList, "ok".toList, "e3".toList] ∧
      result.1.v = [⟨1004, "Oct 11", 4, "e3".toList, "error"⟩,
        ⟨1002, "Oct 11", 2, "e2".toList, "error"⟩] := by
  have hlines : (LogParser.parseLog errorSetup {} (some "e1\ne2\nok\ne3\n".toList)).2
      = ["e1".toList, "e2".toList, "ok".toList, "e3".toList] := by decide
  refine ⟨hlines, ?_⟩
  rw [parseLog_window errorSetup {} (some "e1\ne2\nok\ne3\n".toList) (by decide), hlines]
  decide

end WatchedAgent.Proofs.LogWindow
