import WatchedAgent.Lib.Json

/-!
# `WatchedAgent.Model.Config`: the configuration of the agent

`Config` of `src/config.cpp` reads the configuration document, fills in the members that
are missing, and writes it back. The constructor is a sequence of blocks that test a member
and set one: `Config.blocks` lists them in order, each with the member it tests and the one
it sets. The comments `setComment` attaches are text for the reader of the file, and the
text form of a document is left to the JSON library, so a file holds a `Json` value here.
-/

set_option autoImplicit false

namespace WatchedAgent.Model

open WatchedAgent.Lib (Json)

/-- The constants of `config.h.in`, which the build fills in. -/
structure Install where
  webRoot : String
  sslKey : String
  sslCert : String
  sslVrf : String
  cfgSrv : String
  dllSrv : String
  luaSrv : String
  dllColl : String
  luaColl : String

namespace Config

/-- One block of the constructor. The first block of a section also tests for the section:
`if (! data.isMember(sec) || ! data[sec].isMember(tested)) data[sec][key] = value`. -/
structure Block where
  sec : String
  first : Bool := false
  tested : String
  key : String
  value : Json

/-- The condition of a block. -/
def Block.holds (b : Block) (data : Json) : Option Bool := do
  if b.first && !(← data.isMember b.sec) then return true
  return !(← (← data.getD b.sec).isMember b.tested)

/-- `data[sec][key] = value`. -/
def assign (data : Json) (sec key : String) (value : Json) : Option Json := do
  data.setMember sec (← (← data.getD sec).setMember key value)

/-- A block on the document. -/
def Block.run (data : Json) (b : Block) : Option Json := do
  if ← b.holds data then assign data b.sec b.key b.value else return data

/-- A block that tests the member it sets. -/
def block (sec key : String) (value : Json) : Block := { sec, tested := key, key, value }

/-- The blocks of `Config::Config`, in order. -/
def blocks (w : Install) : List Block := [
  -- The first one tests `thread` and sets `threads`.
  { sec := "server", first := true, tested := "thread", key := "threads", value := .int 8 },
  block "server" "host" (.str ""),
  block "server" "port" (.int 9080),
  block "server" "web_root" (.str w.webRoot),
  block "server" "useSSL" (.bool false),
  block "server" "SSL_key" (.str w.sslKey),
  block "server" "SSL_cert" (.str w.sslCert),
  block "server" "SSL_verify" (.str w.sslVrf),
  { block "services" "config_dir" (.str w.cfgSrv) with first := true },
  block "services" "find_frequency" (.int 120),
  { block "plugins" "services_cpp" (.str w.dllSrv) with first := true },
  block "plugins" "services_lua" (.str w.luaSrv),
  block "plugins" "collectors_cpp" (.str w.dllColl),
  block "plugins" "collectors_lua" (.str w.luaColl)]

/-- `Config::Config`: the member `data`. A file that cannot be read leaves it `null`. -/
def load (w : Install) (file : Option Json) : Option Json :=
  (blocks w).foldlM Block.run (file.getD .null)

/-- `Config::save`: the file afterwards. One that cannot be opened stays as it is. -/
def save (writable : Bool) (file : Option Json) (data : Json) : Option Json :=
  if writable then some data else file

/-- A configuration file is read and written back. The outer `none` is an exception of the
JSON library. -/
def loadAndSave (w : Install) (writable : Bool) (file : Option Json) : Option (Option Json) :=
  (load w file).map (save writable file)

end Config

end WatchedAgent.Model
