import WatchedAgent.Lib.Text

/-!
# `WatchedAgent.Model.Startup`: the directories read at start-up

`servicesManager::init` and `CollectorsManager::CollectorsManager` read five directories:
service configurations, and C++ and Lua plugins of services and of collectors. The five
loops handle a name in the same way, so `scanEntry` is the turn of all of them, with the
extension and the loading of a file as parameters. An exception of `substr` leaves the
function it is thrown in and is caught nowhere: it is `none` here.
-/

set_option autoImplicit false

namespace WatchedAgent.Model

open WatchedAgent.Lib

/-- The file types of `st_mode`. -/
inductive FileType where
  | regular
  | directory
  | fifo
  | charDevice
  | blockDevice
  | socket
  deriving DecidableEq

/-- The bits of `st_mode & S_IFMT`. -/
def FileType.mode : FileType → Nat
  | .regular => 0o100000
  | .directory => 0o040000
  | .fifo => 0o010000
  | .charDevice => 0o020000
  | .blockDevice => 0o060000
  | .socket => 0o140000

/-- `(st.st_mode & S_IFDIR) != 0`. -/
def FileType.isDirectory (t : FileType) : Bool := t.mode &&& 0o040000 != 0

/-- An entry `readdir` returns, with what `stat` says about it: `none` when it fails. -/
structure Dirent where
  name : String
  stat : Option FileType
  deriving DecidableEq

namespace Startup

/-- `file_name[0] == '.'`. -/
def isHidden (name : String) : Bool := name.toList.head? == some '.'

/-- `file_name.substr(0, file_name.rfind("."))`. -/
def stem (name : String) : String :=
  String.ofList (name.toList.take ((Text.rfind name '.').getD name.length))

/-- `file_name.substr(file_name.rfind("."))`. The position `npos` is greater than any size,
so a name without a dot throws. -/
def extension (name : String) : Option String := do
  Text.substr name (← Text.rfind name '.')

/-- A turn of a directory loop, which loads the files with the extension `ext`. -/
def scanEntry {σ : Type} (ext : String) (load : σ → String → σ) (s : σ) (ent : Dirent) :
    Option σ := do
  if isHidden ent.name then return s
  match ent.stat with
  | none => return s
  | some st =>
      if st.isDirectory then return s
      if (← extension ent.name) = ext then return load s ent.name else return s

/-- A directory loop. A directory that does not exist is reported and skipped. -/
def scan {σ : Type} (ext : String) (load : σ → String → σ) (dir : Option (List Dirent)) (s : σ) :
    Option σ :=
  (dir.getD []).foldlM (scanEntry ext load) s

/-- The keys a library registers with the factories when it is loaded. -/
structure Library where
  collectors : List String := []
  serviceCollectors : List String := []
  parsers : List String := []
  handlers : List String := []

/-- What the plugin files hold: the keys of a library, and `LuaSorter::isType` of a script. -/
structure Plugins where
  library : String → Library
  isType : String → String → Bool

/-- The five directories, `none` when `opendir` fails. -/
structure Directories where
  config_dir : Option (List Dirent)
  services_cpp : Option (List Dirent)
  services_lua : Option (List Dirent)
  collectors_cpp : Option (List Dirent)
  collectors_lua : Option (List Dirent)

/-- What `servicesManager::init` has loaded: the service configurations, the libraries, the
scripts, and what the scripts went to. A factory maps its keys to script files, with an empty
text for a key of a library. -/
structure Services where
  services : List String := []
  libraries : List String := []
  scripts : List String := []
  serviceCollectorFactory : List (String × String) := []
  parserFactory : List (String × String) := []
  handlerFactory : List (String × String) := []
  enhancers : List String := []
  detectors : List String := []

/-- What `CollectorsManager` has loaded: the libraries, the scripts, and the collectors by
their keys. -/
structure Collectors where
  libraries : List String := []
  scripts : List String := []
  collectors : List String := []

/-- A factory gets an entry, unless it has one under that key. -/
def register (factory : List (String × String)) (name file : String) : List (String × String) :=
  if factory.any (fun e => e.1 == name) then factory else factory ++ [(name, file)]

/-- The loop over the service configurations. -/
def loadConfig (dirs : Directories) (s : Services) : Option Services :=
  scan ".json" (fun s file => { s with services := s.services ++ [file] }) dirs.config_dir s

/-- The keys of the libraries, and `self`, with the makers the agent itself has. -/
def registerLibraries (plugins : Plugins) (s : Services) : Services :=
  let keys (of : Library → List String) :=
    (s.libraries.flatMap (fun file => of (plugins.library file))).map (fun name => (name, ""))
  { s with
      serviceCollectorFactory := keys Library.serviceCollectors ++ [("self", "")]
      parserFactory := keys Library.parsers
      handlerFactory := keys Library.handlers }

/-- The loop over the C++ plugins of the services. -/
def loadServicesCpp (dirs : Directories) (s : Services) : Option Services :=
  scan ".so" (fun s file => { s with libraries := s.libraries ++ [file] }) dirs.services_cpp s

/-- A script of the services: it goes to every list it has the type of. -/
def sortScript (plugins : Plugins) (s : Services) (file : String) : Services :=
  let name := stem file
  let s := { s with scripts := s.scripts ++ [file] }
  let s := if plugins.isType file "collector" then
    { s with serviceCollectorFactory := register s.serviceCollectorFactory name file } else s
  let s := if plugins.isType file "logParser" then
    { s with parserFactory := register s.parserFactory name file } else s
  let s := if plugins.isType file "enhancer" then
    { s with enhancers := s.enhancers ++ [file] } else s
  let s := if plugins.isType file "handler" then
    { s with handlerFactory := register s.handlerFactory name file } else s
  if plugins.isType file "detector" then { s with detectors := s.detectors ++ [file] } else s

/-- The loop over the Lua plugins of the services. -/
def loadServicesLua (plugins : Plugins) (dirs : Directories) (s : Services) : Option Services :=
  scan ".lua" (sortScript plugins) dirs.services_lua s

/-- The loop over the C++ plugins of the collectors. -/
def loadCollectorsCpp (dirs : Directories) (c : Collectors) : Option Collectors :=
  scan ".so" (fun c file => { c with libraries := c.libraries ++ [file] }) dirs.collectors_cpp c

/-- A script of the collectors is loaded when no collector has its name. -/
def loadCollector (c : Collectors) (file : String) : Collectors :=
  if c.collectors.contains (stem file) then c
  else { c with scripts := c.scripts ++ [file], collectors := c.collectors ++ [stem file] }

/-- The loop over the Lua plugins of the collectors. -/
def loadCollectorsLua (dirs : Directories) (c : Collectors) : Option Collectors :=
  scan ".lua" loadCollector dirs.collectors_lua c

/-- The keys of `collectorFactory`, once the libraries are loaded. -/
def collectorFactory (plugins : Plugins) (libraries : List String) : List String :=
  libraries.flatMap (fun file => (plugins.library file).collectors)

/-- `CollectorsManager::CollectorsManager`. The libraries of the services are loaded
already. -/
def collectorsManager (plugins : Plugins) (dirs : Directories) (libraries : List String) :
    Option Collectors := do
  let c ← loadCollectorsCpp dirs {}
  loadCollectorsLua dirs { c with collectors := collectorFactory plugins (libraries ++ c.libraries) }

/-- `servicesManager::init`. -/
def init (plugins : Plugins) (dirs : Directories) : Option (Services × Collectors) := do
  let s ← loadConfig dirs {}
  let s ← loadServicesCpp dirs s
  let s ← loadServicesLua plugins dirs (registerLibraries plugins s)
  return (s, ← collectorsManager plugins dirs s.libraries)

end Startup

end WatchedAgent.Model
