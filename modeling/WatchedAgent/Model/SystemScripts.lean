import WatchedAgent.Lib.LuaGroups
import WatchedAgent.Model.HostCollectors

/-!
# `WatchedAgent.Model.SystemScripts`: the collectors of the system as scripts

`luaCollectors/cpuload.lua` and `luaCollectors/uptime.lua`, by the calls of their `declare`
and their `collect`. A script reads a file as a whole. `addProperty` changes no sample, and
so it is left out here.
-/

set_option autoImplicit false

namespace WatchedAgent.Model.Collecting

open WatchedAgent.Lib
open WatchedAgent.Lib.Text

/-- `this.setDProperty(res, name, s)` with a text or `nil`. What is no number is an error. -/
def setText (res name : String) (s : Option String) : LuaCall :=
  match s.bind tonumber with
  | some q => .setDProperty res name (some q)
  | none => .error

/-- `declare` of `cpuload.lua`. -/
def cpuLoadScript : List LuaCall := [.addRessource "avg" "loadaverage"]

/-- `collect` of `cpuload.lua`. Where nothing matches, `a`, `b` and `c` are `nil`. -/
def cpuLoadCalls (file : Option String) : List LuaCall :=
  match file with
  | none => [.error]
  | some t =>
      let groups := (Lua.luaMatchGroups "(%d+.%d+) (%d+.%d+) (%d+.%d+)" t).getD []
      [.nextValue "avg", setText "avg" "avg1" groups[0]?, setText "avg" "avg5" groups[1]?,
        setText "avg" "avg15" groups[2]?]

/-- `declare` of `uptime.lua`. -/
def uptimeScript : List LuaCall := [.addRessource "uptime" "uptime"]

/-- `collect` of `uptime.lua`. -/
def uptimeCalls (file : Option String) : List LuaCall :=
  match file with
  | none => [.error]
  | some t => [.nextValue "uptime", setText "uptime" "uptime" (Lua.luaMatch "(%d+.%d+)" t)]

end WatchedAgent.Model.Collecting
