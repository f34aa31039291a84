import WatchedAgent.Lib.IStream

/-!
# `WatchedAgent.Model.LogParser`: incremental reading of a log file

`logParser` (`include/services.h`, `src/services.cpp`) keeps the position and the line
number where the last poll stopped. `parseLog` opens the file, reads what was added since,
and stores the reportable lines in a bounded history, newest first.

`getLevel` and `getDate` are virtual in the source, so they are parameters here. So are
the clock and the `history` bound of the configuration.
-/

set_option autoImplicit false

namespace WatchedAgent.Model

open WatchedAgent.Lib

/-- `logParser::levels`. -/
inductive Level where
  | ok | info | notice | warning | error | critical
  deriving DecidableEq

/-- The text `parseLog` stores for a level. -/
def Level.text : Level → String
  | .notice => "notice"
  | .warning => "warning"
  | .error => "error"
  | .critical => "critical"
  | _ => "info"

/-- One element of the history `v`. -/
structure LogEntry where
  timestamp : Nat := 0
  dateMark : String := ""
  lineNo : Nat := 0
  text : List Char := []
  level : String := ""
  deriving DecidableEq

/-- What a log parser is configured with: the two virtual functions, the `history` bound,
and the clock, read at the line with the given number. -/
structure LogSetup where
  getLevel : List Char → Level
  getDate : List Char → String
  history : Nat
  clock : Nat → Nat

/-- The level of a number, as `parseLog` tells them apart: a number that is no level is not
`ok`, and goes the way of `info`. -/
def Level.ofInt : Int → Level
  | 0 => .ok
  | 2 => .notice
  | 3 => .warning
  | 4 => .error
  | 5 => .critical
  | _ => .info

/-- `class LuaParser`: a script that gives the level of a line as a number. The script is gone
without `haveState`. -/
structure LuaParser where
  getLevel : List Char → Int
  getDate : List Char → String
  haveState : Bool := true

/-- `LuaParser::getLevel` and `LuaParser::getDate` as the functions of a log parser. -/
def LuaParser.setup (lua : LuaParser) (history : Nat) (clock : Nat → Nat) : LogSetup where
  getLevel line := if lua.haveState then .ofInt (lua.getLevel line) else .ok
  getDate line := if lua.haveState then lua.getDate line else ""
  history := history
  clock := clock

/-- The state `parseLog` reads and writes. -/
structure LogParser where
  v : List LogEntry := []
  pos : Int := 0
  lineNo : Nat := 0
  deriving DecidableEq

/-- The body of the reading loop. A new entry starts as a copy of the newest one, and then
every field is set. -/
def LogParser.handleLine (setup : LogSetup) (p : LogParser) (line : List Char) :
    LogParser :=
  let p := { p with lineNo := p.lineNo + 1 }
  let lvl := setup.getLevel line
  -- A line counts, but it is recorded only with a level and a date.
  if lvl = .ok then p
  else
    let dt := setup.getDate line
    if dt = "" then p
    else
      let copy := p.v.headD {}
      let entry :=
        { copy with
            timestamp := setup.clock p.lineNo
            dateMark := dt
            lineNo := p.lineNo
            text := line
            level := lvl.text }
      let v := entry :: p.v
      { p with v := if v.length > setup.history then v.take setup.history else v }

/-- `logParser::parseLog`: the parser afterwards, and the lines it gave to `getLevel`, in
order. `infile` is the content of the file, or `none` when it cannot be opened. -/
def LogParser.parseLog (setup : LogSetup) (p : LogParser) (infile : Option (List Char)) :
    LogParser × List (List Char) :=
  match infile with
  | none => (p, [])
  | some content =>
      let stream := IStream.openAte content
      let newSize := stream.tellg
      if newSize = p.pos then (p, [])
      else
        -- log rotated
        let p := if newSize < p.pos then { p with pos := 0, lineNo := 0 } else p
        let r := (stream.seekg p.pos).readLines
        ({ r.1.foldl (LogParser.handleLine setup) p with pos := r.2.tellg }, r.1)

namespace LogParser

variable (setup : LogSetup)

@[simp]
theorem handleLine_lineNo (p : LogParser) (line : List Char) :
    (p.handleLine setup line).lineNo = p.lineNo + 1 := by
  unfold handleLine
  dsimp only
  split
  · rfl
  · split <;> rfl

/-- The loop counts the lines it reads. -/
theorem foldl_handleLine_lineNo (p : LogParser) (lines : List (List Char)) :
    (lines.foldl (handleLine setup) p).lineNo = p.lineNo + lines.length := by
  induction lines generalizing p with
  | nil => rfl
  | cons line lines ih =>
      rw [List.foldl_cons, ih, handleLine_lineNo, List.length_cons]
      omega

/-- A poll that finds the file as long as the saved position does nothing. -/
theorem parseLog_of_same_size (p : LogParser) (content : List Char)
    (h : (content.length : Int) = p.pos) :
    p.parseLog setup (some content) = (p, []) := by
  simp [parseLog, IStream.openAte, IStream.tellg, IStream.good, h]

/-- A poll of a non-empty file of whole lines with the saved position at the start hands
over all its lines. Its last `getline` fails, so the position it saves is `-1`. -/
theorem parseLog_of_start (p : LogParser) (ls : List Line) (hls : ls ≠ [])
    (hpos : p.pos = 0) :
    p.parseLog setup (some (fileText ls))
      = ({ (ls.map Subtype.val).foldl (handleLine setup) p with pos := -1 },
          ls.map Subtype.val) := by
  have hlen : (fileText ls).length ≠ 0 :=
    fun h => hls (fileText_eq_nil.mp (List.length_eq_zero_iff.mp h))
  have hnotlt : ¬ ((fileText ls).length : Int) < 0 := by omega
  -- From position 0 of whole lines the loop reads them all, and fails at the end.
  have hread : IStream.readLines ⟨fileText ls, 0, false, false⟩ = (ls.map Subtype.val,
      ⟨fileText ls, (fileText ls).length, true, true⟩) :=
    IStream.readLines_wholeLines [] ls
  obtain ⟨v, pos, lineNo⟩ := p
  simp only at hpos
  subst hpos
  simp [parseLog, IStream.openAte, IStream.tellg, IStream.good, IStream.seekg, hlen, hnotlt,
    hread]

/-- A poll with the saved position `-1` reads nothing: `seekg(-1)` sets `failbit`. -/
theorem parseLog_of_lost (p : LogParser) (content : List Char) (hpos : p.pos = -1) :
    p.parseLog setup (some content) = (p, []) := by
  have hne : ((content.length : Int)) ≠ -1 := by omega
  have hnotlt : ¬ ((content.length : Int)) < -1 := by omega
  obtain ⟨v, pos, lineNo⟩ := p
  simp only at hpos
  subst hpos
  simp [parseLog, IStream.openAte, IStream.tellg, IStream.good, IStream.seekg, hne, hnotlt,
    IStream.readLines, IStream.getlines, IStream.getline]

end LogParser

end WatchedAgent.Model
