import WatchedAgent.Lib.LuaLazy
import WatchedAgent.Lib.LuaPattern
import WatchedAgent.Lib.OStream
import WatchedAgent.Model.LogParser

/-!
# `WatchedAgent.Model.AgentLog`: the log of the agent, and the scripts that read logs

`log` of `src/log.cpp` writes a line for each message up to its level. The service of the agent
has this file as a log, which the script `luaServices/self.lua` reads for the parser of
`Model.LogParser`. The other scripts with a `getLevel` read the logs of other services.

The time is the text that `strftime` gives. A value of the configuration is a text. The scripts
use the names `ok`, `warning` and `error`, which the constructor of `LuaParser` sets to the
numbers of the levels.
-/

set_option autoImplicit false

namespace WatchedAgent.Model

open WatchedAgent.Lib

namespace AgentLog

/-! ### The writer -/

/-- `log::levels`. -/
def levels : List String := ["NONE", "ERROR", "WARN", "NOTICE", "INFO", "DEBUG", "ALL"]

/-- `std::toupper` of each character. -/
def toupper (lvl : String) : String := String.ofList (lvl.toList.map Char.toUpper)

/-- The loops over the levels: the last one with that name, and `3` when there is none. -/
def findLevel (lvl : String) : Nat :=
  levels.zipIdx.foldl (fun level e => if e.1 = toupper lvl then e.2 else level) 3

/-- The configuration of the log. -/
structure LogConfig where
  file : Option String := none
  level : Option String := none
  deriving DecidableEq

/-- `log::log`: the level, and the configuration afterwards. -/
def log (WATCHED_LOG_FILE : String) (cfg : LogConfig) : Nat × LogConfig :=
  let file := cfg.file.getD WATCHED_LOG_FILE
  let level := findLevel (cfg.level.getD "NOTICE")
  (level, { file := some file, level := some (levels[level]?.getD "") })

/-- The line of a message. -/
def line (buffer : String) (p_lvl : Nat) (p_src p_message : String) : List Char :=
  let out : OStream := {}
  let out := ((out.pad "[ ".toList).pad buffer.toList).pad " | ".toList
  let out := ((out.setw 6).pad (levels[p_lvl]?.getD "").toList).pad " ] ".toList
  let out := (((out.setw 30).pad p_src.toList).pad " - ".toList).pad p_message.toList
  out.text

/-- `log::write`: what is appended to the file at the time `buffer`. -/
def write (level : Nat) (buffer : String) (p_lvl : Nat) (p_src p_message : String) : List Char :=
  if level < p_lvl then [] else line buffer p_lvl p_src p_message ++ ['\n']

/-- `log::write` with the name of a level. -/
def writeNamed (level : Nat) (buffer p_lvl p_src p_message : String) : List Char :=
  write level buffer (findLevel p_lvl) p_src p_message

/-- `log::error` and its siblings. -/
def error (level : Nat) (buffer : String) := write level buffer 1
def warning (level : Nat) (buffer : String) := write level buffer 2
def notice (level : Nat) (buffer : String) := write level buffer 3
def info (level : Nat) (buffer : String) := write level buffer 4
def debug (level : Nat) (buffer : String) := write level buffer 5

end AgentLog

/-! ### The scripts -/

namespace LogScripts

/-- `string.find(text, word)` is not `nil`, for a word without special characters. -/
def finds (text : List Char) (word : String) : Bool := Text.contains (String.ofList text) word

/-- What `getDate` returns. A `nil` becomes the empty text. -/
def dateOf (date : Option (List Char)) : String := String.ofList (date.getD [])

/-- `luaServices/self.lua`. -/
def self : LuaParser where
  getLevel text := if finds text "ERROR" then 4 else if finds text "WARN" then 3 else 0
  getDate text := dateOf (Lua.lazyMatch '[' '|' text)

/-- The scripts that report the lines with `error`. -/
def errorScript (date : List Char → Option (List Char)) : LuaParser where
  getLevel text := if finds text "error" then 4 else 0
  getDate text := dateOf (date text)

/-- The pattern `%a+ +%d+ +%d+:%d+:%d+`. -/
def syslogDate : Lua.Pattern where
  group := [⟨Lua.isAlpha, .plus⟩, ⟨(· == ' '), .plus⟩, ⟨Text.isDigit, .plus⟩, ⟨(· == ' '), .plus⟩,
    ⟨Text.isDigit, .plus⟩, ⟨(· == ':'), .one⟩, ⟨Text.isDigit, .plus⟩, ⟨(· == ':'), .one⟩,
    ⟨Text.isDigit, .plus⟩]

/-- `luaServices/syslog.lua`. -/
def syslog : LuaParser := errorScript syslogDate.matchIn

/-- `luaServices/kernLog.lua`. -/
def kernLog : LuaParser := errorScript syslogDate.matchIn

/-- `luaServices/daemonlog.lua`. -/
def daemonlog : LuaParser := errorScript syslogDate.matchIn

/-- `luaServices/apacheError.lua`. -/
def apacheError : LuaParser := errorScript (Lua.lazyMatch '[' ']')

/-- `luaServices/cupsError.lua`. -/
def cupsError : LuaParser := errorScript (Lua.lazyMatch '[' ']')

end LogScripts

end WatchedAgent.Model
