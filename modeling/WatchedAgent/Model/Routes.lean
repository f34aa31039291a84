import Mathlib.Data.String.Basic
import WatchedAgent.Lib.OrderedMap
import WatchedAgent.Lib.Regex
import WatchedAgent.Model.HttpServer
import WatchedAgent.Model.Monitored
import WatchedAgent.Model.Status

/-!
# `WatchedAgent.Model.Routes`: the advertised metrics and the routes that serve them

A collector publishes a path for each of its ressources (`getPaths`), from its base path and
its name as they are then. Its constructor adds routes with the base path and the name it had
there (`addGetMetricRoute`). The manager adds a route of its own, which looks for a service by
its identifier and for a collector by the key of its plugin (`doGetCollectorHistory`).

The server keeps the routes in a map, and the first expression in the order of the texts that
matches the whole path answers. A route of a collector holds a pointer to the object, and the
object may be gone (`Response.destroyed`). The path a route sees is what the server takes from
the first line of the request (`requestPath`): up to the first blank, and nothing is decoded.

`step` covers what changes collectors, routes and identifiers: the system collectors, a
service of a configuration file, a service that goes through the enhancers and `addService`,
the passes over stored services, and ressources that a collector adds while it runs.
-/

set_option autoImplicit false

namespace WatchedAgent.Model.Routes

open WatchedAgent.Lib
open WatchedAgent.Lib.Regex
open WatchedAgent.Model.Monitored

/-! ### Collectors -/

/-- What `getPaths` reads of a ressource. -/
structure Metric where
  desc : String := ""
  typeName : String := ""
  deriving DecidableEq

/-- What the plugin of a collector determines: the `name` its constructor ends with (a Lua
collector takes it from `cfg.name`), `enable` of its configuration, its ressources, and
whether the constructor calls `addGetMetricRoute`. -/
structure Plugin where
  name : String
  enable : Bool := true
  ressources : List (String × Metric) := []
  addsRoute : Bool := true

/-- `class Collector`. The number `obj` tells the objects apart. -/
structure RoutedCollector where
  obj : Nat
  name : String
  basePath : String := "/system/"
  haveService : Bool := false
  enable : Bool := true
  ressources : List (String × Metric) := []
  deriving DecidableEq

namespace RoutedCollector

/-- `Collector::addRessource`. -/
def addRessource (c : RoutedCollector) (name : String) (metric : Metric) : RoutedCollector :=
  if c.ressources.any (fun r => r.1 == name) then c
  else { c with ressources := OrderedMap.insert name metric c.ressources }

/-- The path `getPaths` publishes for a ressource. -/
def path (c : RoutedCollector) (ressource : String) : String :=
  c.basePath ++ c.name ++ "/" ++ ressource ++ "/history"

end RoutedCollector

/-- `class service`, with its collectors under the keys of their plugins. -/
structure HostService extends Service where
  collectors : List (String × RoutedCollector) := []
  deriving DecidableEq

/-- The base path `Collector::setService` gives. -/
def HostService.basePath (s : HostService) : String := "/service/" ++ s.getID ++ "/"

/-! ### The table of routes -/

/-- What a route calls. The handlers of the manager that send no history keep their names. -/
inductive Route where
  | doGetHistory (obj : Nat)
  | doGetGraph (obj : Nat)
  | doGetCollectorHistory
  | manager (handler : String)
  deriving DecidableEq

/-- The routes of `servicesManager::init`. -/
def managerRoutes : List (String × Route) := [
  ("^/$", .manager "doGetRootPage"),
  ("^/all$", .manager "doGetAllJson"),
  ("^/all.since=([0-9.]*)$", .manager "doGetAllJson"),
  ("^/service/(.*)/status$", .manager "doGetServiceStatus"),
  ("^/service/(.*)/log$", .manager "doGetServiceLog"),
  ("^/service/(.*)/log.since=([0-9.]*)$", .manager "doGetServiceLog"),
  ("^/service/(.*)/html$", .manager "doGetServiceHtml"),
  ("^/service/(.*)/(.*)/(.*)/history$", .doGetCollectorHistory),
  ("^/service/(.*)/(.*)/(.*)/history.since=([0-9.]*)$", .doGetCollectorHistory),
  ("^/service/(.*)/(.*)/(.*)/graph$", .manager "doGetCollectorGraph"),
  ("^/api/swagger.json$", .manager "doGetJson")]

/-- `HttpServer::setRegex`, for one route after the other. -/
def setRegexes (table routes : List (String × Route)) : List (String × Route) :=
  routes.foldl (fun table r => OrderedMap.insert r.1 r.2 table) table

/-- The routes `Collector::addGetMetricRoute` adds. -/
def metricRoutes (c : RoutedCollector) : List (String × Route) := [
  ("^" ++ c.basePath ++ c.name ++ "/(.*)/history$", .doGetHistory c.obj),
  ("^" ++ c.basePath ++ c.name ++ "/(.*)/history.since=([0-9.]*)$", .doGetHistory c.obj),
  ("^" ++ c.basePath ++ c.name ++ "/(.*)/graph$", .doGetGraph c.obj)]

/-! ### The agent -/

/-- The collectors, the services and the table of the server. `next` is the number of the
next object. -/
structure State where
  systemCollectors : List (String × RoutedCollector) := []
  services : List HostService := []
  resource : List (String × Route) := []
  next : Nat := 0

/-- The agent when `init` has added its routes. -/
def start : State := { resource := setRegexes [] managerRoutes }

namespace State

/-- A collector is built: with the base path of its service, or `/system/`. -/
def construct (s : State) (plugin : Plugin) (serv : Option HostService) :
    State × RoutedCollector :=
  let c : RoutedCollector := {
    obj := s.next, name := plugin.name, enable := plugin.enable
    basePath := (serv.map HostService.basePath).getD "/system/"
    haveService := serv.isSome }
  let c := plugin.ressources.foldl (fun c r => c.addRessource r.1 r.2) c
  ({ s with
      next := s.next + 1
      resource := if plugin.addsRoute then setRegexes s.resource (metricRoutes c)
        else s.resource }, c)

/-- The loops of `CollectorsManager`: a plugin whose key is free becomes a collector. -/
def addSystem (s : State) (key : String) (plugin : Plugin) : State :=
  if (s.systemCollectors.lookup key).isSome then s
  else
    let (s, c) := s.construct plugin none
    { s with systemCollectors := OrderedMap.insert key c s.systemCollectors }

/-- A call of an enhancer, with the plugins of the factory. -/
def call (plugins : String → Option Plugin) (w : State × HostService) :
    EnhancerCall → State × HostService
  | .setter call => (w.1, { w.2 with toService := call.run w.2.toService })
  | .addCollector name =>
      if (w.2.collectors.lookup name).isSome then w -- already added
      else
        match plugins name with
        | none => w -- no factory matching this name
        | some plugin =>
            let (s, c) := w.1.construct plugin (some w.2)
            (s, { w.2 with collectors := OrderedMap.insert name c w.2.collectors })
  | .addLogMonitor _ _ => w
  | .updateBasePaths =>
      (w.1, { w.2 with
        collectors := w.2.collectors.map (fun e =>
          (e.1, { e.2 with basePath := w.2.basePath, haveService := true })) })

/-- `servicesManager::addService`, with the calls the enhancers make. A service that is
merged is destroyed, and its collectors with it. -/
def addService (s : State) (os : OsState) (plugins : String → Option Plugin) (d : Service)
    (calls : List EnhancerCall) : State :=
  let (s, add) := calls.foldl (call plugins) (s, { toService := d })
  let update (i : HostService) : HostService :=
    { i with toService := i.toService.updateFrom os add.toService }
  if s.services.any (fun i => add.equals i.toService) then
    { s with services := modifyFirst (fun i => add.equals i.toService) update s.services }
  else if s.services.any (fun i => i.needSocketFrom os add.toService) then
    { s with
        services := modifyFirst (fun i => i.needSocketFrom os add.toService) update s.services }
  else { s with services := s.services ++ [add] }

end State

/-- What the passes and the requests do to a stored service. -/
inductive ServiceOp where
  | setSocket (sock : Socket)
  | setSockets (os : OsState) (pid : Nat)
  | addSubProcess (p : Process)
  | updateMainProcess (os : OsState) (p : Process)
  | setHandlerObj (handler : Handler)
  | cacheNames (os : OsState)

/-- The operation on the service. -/
def ServiceOp.run : ServiceOp → Service → Service
  | .setSocket sock, s => s.setSocket sock
  | .setSockets os pid, s => s.setSocketsOf os pid
  | .addSubProcess p, s => s.addSubProcess p
  | .updateMainProcess os p, s => s.updateMainProcess os p
  | .setHandlerObj handler, s => { s with handler := some handler }
  | .cacheNames os, s =>
      { s with
          mainProcess := s.mainProcess.map (Service.cacheNames os)
          subProcess := s.subProcess.map (Service.cacheNames os) }

/-- What can happen. -/
inductive Move where
  | system (key : String) (plugin : Plugin)
  | load (d : Service)
  | add (os : OsState) (plugins : String → Option Plugin) (d : Service)
      (calls : List EnhancerCall)
  | update (k : Nat) (op : ServiceOp)
  | addRessource (obj : Nat) (name : String) (metric : Metric)

/-- One step of the agent. -/
def step (s : State) : Move → State
  | .system key plugin => s.addSystem key plugin
  | .load d => { s with services := s.services ++ [{ toService := d }] }
  | .add os plugins d calls => s.addService os plugins d calls
  | .update k op =>
      { s with services := s.services.modify k (fun i => { i with toService := op.run i.toService }) }
  | .addRessource obj name metric =>
      let grow (e : String × RoutedCollector) : String × RoutedCollector :=
        if e.2.obj = obj then (e.1, e.2.addRessource name metric) else e
      { s with
          systemCollectors := s.systemCollectors.map grow
          services := s.services.map (fun i => { i with collectors := i.collectors.map grow }) }

/-! ### The document -/

/-- The part of a path that `getPaths` fills. -/
structure PathItem where
  summary : String
  ref : String
  xService : Option String
  deriving DecidableEq

/-- The keys of `definitions`, and the paths of the collectors. -/
structure Document where
  definitions : List String
  paths : List (String × PathItem)
  deriving DecidableEq

/-- `Collector::getDefinitions`. -/
def getDefinitions (c : RoutedCollector) (doc : Document) : Document :=
  if c.enable then
    { doc with
        definitions := c.ressources.foldl (fun defs r =>
          if r.2.typeName ∈ defs then defs else defs ++ [r.2.typeName]) doc.definitions }
  else doc

/-- `Collector::getPaths`, for a collector of the service with that identifier. -/
def getPaths (c : RoutedCollector) (service : Option String) (doc : Document) : Document :=
  if c.enable then
    { doc with
        paths := c.ressources.foldl (fun paths r =>
          OrderedMap.insert (c.path r.1)
            { summary := r.2.desc, ref := "#/definitions/" ++ r.2.typeName, xService := service }
            paths) doc.paths }
  else doc

/-- `CollectorsManager::getJson`, and the loop of `service::getJson`. -/
def getJson (service : Option String) (collectors : List (String × RoutedCollector))
    (doc : Document) : Document :=
  collectors.foldl (fun doc e => getPaths e.2 service (getDefinitions e.2 doc)) doc

/-- `servicesManager::doGetJson`. -/
def doGetJson (s : State) : Document :=
  let doc := getJson none s.systemCollectors { definitions := ["services"], paths := [] }
  let doc := { doc with
    definitions := doc.definitions ++ ["serviceProcess", "serviceSocket", "serviceLog"] }
  s.services.foldl (fun doc i => getJson (some i.getID) i.collectors doc) doc

/-! ### Requests -/

/-- The answer to a request. `history` is the history of a ressource of the object, filtered
by a query if there is one. -/
inductive Response where
  | history (obj : Nat) (ressource : String) (query : Option String)
  | noMetric
  | noCollector (cid id : String)
  | noService (id : String)
  | destroyed
  | handler (name : String)
  | file
  deriving DecidableEq

/-- The query of a path: what follows the first `?`. -/
def query (path : String) : Option String :=
  (Text.find path '?' 0).map (fun pos => String.ofList (path.toList.drop (pos + 1)))

/-- `Collector::doGetHistory`. -/
def RoutedCollector.doGetHistory (c : RoutedCollector) (name : String) (query : Option String) :
    Response :=
  if c.ressources.any (fun r => r.1 == name) then .history c.obj name query else .noMetric

namespace State

/-- The collectors that exist. -/
def objects (s : State) : List RoutedCollector :=
  s.systemCollectors.map Prod.snd ++ s.services.flatMap (fun i => i.collectors.map Prod.snd)

/-- `servicesManager::doGetCollectorHistory`. -/
def doGetCollectorHistory (s : State) (id cid name : String) (query : Option String) :
    Response :=
  match s.services.find? (fun i => i.getID == id) with
  | none => .noService id
  | some i =>
      match i.collectors.lookup cid with
      | none => .noCollector cid id
      | some c => c.doGetHistory name query

/-- What a route answers, with the groups of the match. -/
def respond (s : State) (query : Option String) : Route → List String → Response
  | .doGetHistory obj, groups =>
      match s.objects.find? (fun c => c.obj == obj) with
      | none => .destroyed
      | some c => c.doGetHistory (groups[0]?.getD "") query
  | .doGetGraph _, _ => .handler "doGetGraph"
  | .doGetCollectorHistory, groups =>
      s.doGetCollectorHistory (groups[0]?.getD "") (groups[1]?.getD "") (groups[2]?.getD "") query
  | .manager name, _ => .handler name

/-- `find_resource` of the server, for a GET with that path in the request. Without a match the
default resource answers. -/
def get (s : State) (path : String) : Response :=
  match s.resource.findSome? (fun e => (regexMatch e.1 path).map (fun gs => (e.2, gs))) with
  | none => .file
  | some (route, groups) => s.respond (query path) route groups

end State

/-- The path that the server reads when a client asks for one. `none` is a request that is
refused. -/
def requestPath (path : String) : Option String :=
  let text := "GET " ++ path ++ " HTTP/1.1\r\n\r\n"
  match Http.parse_request text.length { content := { content := text.toList, pos := 0 } } with
  | some (true, request) => some request.path
  | _ => none

/-- A GET for a path. A request that is refused gets no answer. -/
def State.answer (s : State) (path : String) : Option Response := (requestPath path).map s.get

end WatchedAgent.Model.Routes
