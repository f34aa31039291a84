import WatchedAgent.Lib.Run
import WatchedAgent.Model.LogParser

/-!
# `WatchedAgent.Proofs.LogRuns`: a log file, its writer and the parser

A run interleaves the writer, who appends whole lines or replaces the file, with polls of
the parser. `LogWorld` is the state: the file, the parser, and how much was handed over so
far, which the statements speak about and the code does not see. A replacement may put any
file of whole lines in place, so the shorter file of a rotation is one case of it.

* `PollExact`: a poll hands over exactly the lines not handed over yet, and the line
  number afterwards is the number of lines of the file.
* `PollUndisturbed`: the saved position is not `-1`, or the file is as the last poll left
  it. `parseLog` reads its position back from a stream whose `getline` has just failed, so
  the position is `-1` after the first poll that finds the file non-empty.

`polls_exact_iff` proves that the polls of a run are all exact if and only if they are all
undisturbed. The invariant `Tracked` carries it: before the first non-empty poll nothing
has been read, and after it the position is lost and the line number counts the lines
handed over.
-/

set_option autoImplicit false

namespace WatchedAgent.Proofs

open WatchedAgent.Lib
open WatchedAgent.Lib.Run
open WatchedAgent.Model

/-- A step of a run: the writer appends lines, the writer replaces the file, or the parser
polls. -/
inductive LogStep where
  | append (ls : List Line)
  | replace (ls : List Line)
  | poll

/-- The state of a run. `handed` counts the lines of the file handed over so far, and
`rotated` tells whether the file was replaced since the last poll. -/
structure LogWorld where
  file : List Line
  parser : LogParser := {}
  handed : Nat := 0
  rotated : Bool := false

namespace LogWorld

variable (setup : LogSetup)

/-- The poll of a state: the parser afterwards, and the lines handed over. -/
def polled (w : LogWorld) : LogParser × List (List Char) :=
  w.parser.parseLog setup (some (fileText w.file))

/-- One step of a run. No line of a new file has been handed over. -/
def step (w : LogWorld) : LogStep → LogWorld
  | .append ls => { w with file := w.file ++ ls }
  | .replace ls => { w with file := ls, handed := 0, rotated := true }
  | .poll =>
      { w with
          parser := (w.polled setup).1
          handed := w.handed + (w.polled setup).2.length
          rotated := false }

/-- A poll hands over exactly the lines not handed over yet, in file order, and counts the
lines of the file. -/
def PollExact (w : LogWorld) : LogStep → Prop
  | .poll => (w.polled setup).2 = (w.file.drop w.handed).map Subtype.val ∧
      (w.polled setup).1.lineNo = w.file.length
  | _ => True

/-- The saved position of a poll is not lost, or there is nothing new in the file. -/
def PollUndisturbed (w : LogWorld) : LogStep → Prop
  | .poll => w.parser.pos = -1 → w.handed = w.file.length ∧ w.rotated = false
  | _ => True

instance (w : LogWorld) (a : LogStep) : Decidable (w.PollExact setup a) := by
  cases a <;> unfold PollExact <;> infer_instance

/-- What an undisturbed run keeps. Either no line has been read yet, or the position is
lost and the line number counts the lines that were handed over. -/
inductive Tracked (w : LogWorld) : Prop where
  | unread (hpos : w.parser.pos = 0) (hline : w.parser.lineNo = 0) (hhanded : w.handed = 0)
  | lost (hpos : w.parser.pos = -1) (hline : 0 < w.parser.lineNo)
      (hsame : w.rotated = false →
        w.handed = w.parser.lineNo ∧ w.handed ≤ w.file.length)
      (hnew : w.rotated = true → w.handed = 0)

/-- The poll of a state where nothing has been read: an empty file changes nothing, and a
non-empty file is read whole. -/
theorem polled_of_unread (w : LogWorld) (hpos : w.parser.pos = 0) :
    (w.polled setup).2 = w.file.map Subtype.val ∧
    (w.polled setup).1.lineNo = w.parser.lineNo + w.file.length ∧
    (w.polled setup).1.pos = (if w.file = [] then 0 else -1) := by
  unfold polled
  by_cases hfile : w.file = []
  · have hsize : ((fileText w.file).length : Int) = w.parser.pos := by
      rw [hpos, hfile]
      rfl
    rw [LogParser.parseLog_of_same_size setup _ _ hsize, if_pos hfile]
    simp [hfile, hpos]
  · rw [LogParser.parseLog_of_start setup _ _ hfile hpos, if_neg hfile]
    refine ⟨rfl, ?_, rfl⟩
    simpa using LogParser.foldl_handleLine_lineNo setup w.parser (w.file.map Subtype.val)

/-- The poll of a state with the position lost reads nothing. -/
theorem polled_of_lost (w : LogWorld) (hpos : w.parser.pos = -1) :
    w.polled setup = (w.parser, []) :=
  LogParser.parseLog_of_lost setup _ _ hpos

/-- With the position lost, a poll is exact if and only if it is undisturbed. -/
theorem pollExact_iff_of_lost (w : LogWorld) (hpos : w.parser.pos = -1)
    (hline : 0 < w.parser.lineNo)
    (hsame : w.rotated = false → w.handed = w.parser.lineNo ∧ w.handed ≤ w.file.length)
    (hnew : w.rotated = true → w.handed = 0) :
    w.PollExact setup .poll ↔ w.PollUndisturbed .poll := by
  have hpoll := polled_of_lost setup w hpos
  constructor
  · rintro ⟨hlines, hno⟩ -
    -- The poll hands nothing over, so it is exact when nothing is left.
    rw [hpoll] at hlines hno
    have hdrop : w.file.drop w.handed = [] := by simpa using hlines.symm
    have hge : w.file.length ≤ w.handed := List.drop_eq_nil_iff.mp hdrop
    cases hr : w.rotated with
    | false => exact ⟨Nat.le_antisymm (hsame hr).2 hge, rfl⟩
    | true =>
        -- Nothing of the new file was handed over, so it is empty, and the line number
        -- still counts the lines of the old file.
        exfalso
        have hzero := hnew hr
        simp only at hno
        omega
  · intro hund
    obtain ⟨hall, hr⟩ := hund hpos
    have hdrop : w.file.drop w.handed = [] :=
      List.drop_eq_nil_of_le (Nat.le_of_eq hall.symm)
    refine ⟨?_, ?_⟩
    · rw [hpoll, hdrop]
      rfl
    · rw [hpoll, ← hall, (hsame hr).1]

/-- In a tracked state a poll is exact if and only if it is undisturbed. -/
theorem pollExact_iff (w : LogWorld) (a : LogStep) (h : w.Tracked) :
    w.PollExact setup a ↔ w.PollUndisturbed a := by
  cases a with
  | append ls => exact Iff.rfl
  | replace ls => exact Iff.rfl
  | poll =>
      cases h with
      | unread hpos hline hhanded =>
          obtain ⟨hlines, hno, -⟩ := polled_of_unread setup w hpos
          have hexact : w.PollExact setup .poll := by
            refine ⟨?_, ?_⟩
            · rw [hlines, hhanded, List.drop_zero]
            · rw [hno, hline, Nat.zero_add]
          have hund : w.PollUndisturbed .poll := by
            intro hlost
            rw [hpos] at hlost
            exact absurd hlost (by decide)
          exact iff_of_true hexact hund
      | lost hpos hline hsame hnew => exact pollExact_iff_of_lost setup w hpos hline hsame hnew

/-- An undisturbed step keeps the invariant. -/
theorem tracked_step (w : LogWorld) (a : LogStep) (h : w.Tracked)
    (hund : w.PollUndisturbed a) : (w.step setup a).Tracked := by
  cases h with
  | unread hpos hline hhanded =>
      cases a with
      | append ls => exact .unread hpos hline hhanded
      | replace ls => exact .unread hpos hline rfl
      | poll =>
          obtain ⟨hlines, hno, hpos'⟩ := polled_of_unread setup w hpos
          by_cases hfile : w.file = []
          · -- An empty file: the poll reads nothing and keeps position 0.
            refine .unread ?_ ?_ ?_
            · simpa [step, hfile] using hpos'
            · simpa [step, hfile, hline] using hno
            · simp [step, hlines, hfile, hhanded]
          · -- The whole file is read, and its failing `getline` loses the position.
            refine .lost ?_ ?_ ?_ ?_
            · simpa [step, hfile] using hpos'
            · have hlen : 0 < w.file.length := List.length_pos_of_ne_nil hfile
              simp only [step, hno]
              omega
            · intro _
              simp [step, hlines, hno, hline, hhanded]
            · intro hr
              simp [step] at hr
  | lost hpos hline hsame hnew =>
      cases a with
      | append ls =>
          refine .lost hpos hline (fun hr => ⟨(hsame hr).1, ?_⟩) hnew
          have hle := (hsame hr).2
          simp only [step, List.length_append]
          omega
      | replace ls => exact .lost hpos hline (fun hr => by simp [step] at hr) (fun _ => rfl)
      | poll =>
          obtain ⟨hall, hr⟩ := hund hpos
          have hpoll := polled_of_lost setup w hpos
          refine .lost ?_ ?_ ?_ ?_
          · simp only [step, hpoll, hpos]
          · simpa only [step, hpoll] using hline
          · intro _
            simpa [step, hpoll] using hsame hr
          · intro hr'
            simp [step] at hr'

end LogWorld

/-- Take any run from the initial state of a parser, over a file with any lines. All its
polls hand over exactly the new lines if and only if no poll finds the position lost and
the file changed. -/
theorem polls_exact_iff (setup : LogSetup) (file : List Line) (run : List LogStep) :
    Meets (LogWorld.step setup) (LogWorld.PollExact setup) { file } run ↔
      Meets (LogWorld.step setup) LogWorld.PollUndisturbed { file } run :=
  meets_iff_meets (L := fun _ _ => True)
    (fun w a h _ => LogWorld.pollExact_iff setup w a h)
    (fun w a h _ hund => LogWorld.tracked_step setup w a h hund)
    { file } run (.unread rfl rfl rfl) (by
      rw [meets_iff_forall_split]
      intros
      trivial)

/-- The line `a`, for the run below. -/
def lineA : Line := ⟨['a'], by decide⟩

/-- A parser that finds nothing to report. -/
def quietSetup : LogSetup where
  getLevel _ := .ok
  getDate _ := ""
  history := 25
  clock _ := 0

/-- Append, poll, append, poll: the second poll hands nothing over. -/
theorem not_polls_exact_append_twice :
    ¬ Meets (LogWorld.step quietSetup) (LogWorld.PollExact quietSetup) { file := [] }
        [.append [lineA], .poll, .append [lineA], .poll] := by
  decide

end WatchedAgent.Proofs
