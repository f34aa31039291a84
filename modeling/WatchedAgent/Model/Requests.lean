import WatchedAgent.Lib.Strtod
import WatchedAgent.Model.LogParser
import WatchedAgent.Model.Ressource
import WatchedAgent.Model.Routes

/-!
# `WatchedAgent.Model.Requests`: requests for histories

The handlers that read `since` from the query: `doGetAllJson` and `doGetServiceLog` of the
manager, and `Collector::doGetHistory`, which the routes of a collector and
`doGetCollectorHistory` call. With them the query string as the server takes it apart
(`parse_query_string`), and the lambda of `HttpServer::setRegex`, which sends what the handler
wrote to its own stream, and nothing when the handler throws (`Outcome`).

The routes and the objects are those of `Model.Routes`. An `Agent` also has the samples of the
ressources and the log parsers of the services. The text of a JSON document comes from its
writer (`JsonWriter`). Text is a `String`, one `Char` for each byte.
-/

set_option autoImplicit false

namespace WatchedAgent.Model.Requests

open WatchedAgent.Lib
open WatchedAgent.Lib.Regex
open WatchedAgent.Lib.Strtod (Double stod)
open WatchedAgent.Model.Routes

/-! ### The query string -/

/-- The byte of two characters after a `%`. `strtol` takes blanks, a sign, and texts that are
no number. -/
def hexByte (a b : Char) : Char := Char.ofNat (Text.strtoul 16 (String.ofList [a, b]) % 256)

/-- `Percent::decode`. -/
def decode : List Char → List Char
  | '%' :: a :: b :: cs => hexByte a b :: decode cs
  | '+' :: cs => ' ' :: decode cs
  | c :: cs => c :: decode cs
  | [] => []

/-- The variables of the loop of `parse_query_string`. -/
structure QueryScan where
  parameter_pos : Nat := 0
  parameter_end_pos : Option Nat := none
  value_pos : Option Nat := none
  result : List (String × String) := []

/-- An entry of the result, unless its key is empty. -/
def emplace (parameter value : List Char) (result : List (String × String)) :
    List (String × String) :=
  if parameter = [] then result
  else result ++ [(String.ofList parameter, String.ofList (decode value))]

/-- A turn of the loop, at the position `c` of the query string. -/
def QueryScan.next (query_string : List Char) (s : QueryScan) (e : Char × Nat) : QueryScan :=
  let (x, c) := e
  if x = '&' then
    let parameter := (query_string.drop s.parameter_pos).take
      (s.parameter_end_pos.getD c - s.parameter_pos)
    let value := match s.value_pos with
      | none => []
      | some value_pos => (query_string.drop value_pos).take (c - value_pos)
    { parameter_pos := c + 1, result := emplace parameter value s.result }
  -- The last `=` splits the parameter.
  else if x = '=' then { s with parameter_end_pos := some c, value_pos := some (c + 1) }
  else s

/-- `parse_query_string`. The keys are not decoded. The pairs are in the order of the text, and
the handlers take them in any order, as the multimap may have them in another one. -/
def parse_query_string (query_string : List Char) : List (String × String) :=
  let s := query_string.zipIdx.foldl (QueryScan.next query_string) {}
  if s.parameter_pos < query_string.length then
    let rest := query_string.drop s.parameter_pos
    let parameter := match s.parameter_end_pos with
      | none => rest
      | some parameter_end_pos => rest.take (parameter_end_pos - s.parameter_pos)
    let value := match s.value_pos with
      | none => []
      | some value_pos => query_string.drop value_pos
    emplace parameter value s.result
  else s.result

/-- `Request::parse_query_string`. -/
def queryArgs (path : String) : List (String × String) :=
  ((query path).map (fun q => parse_query_string q.toList)).getD []

/-- `since` of the three handlers. `none` is an exception of `stod`. -/
def sinceOf (args : List (String × String)) : Option Double :=
  args.foldlM (fun since pair => if pair.1 == "since" then stod pair.2 else some since) (.num (-1))

/-! ### Histories -/

/-- The test of the readers on a sample. -/
def isReported (since : Double) (s : Sample) : Option Bool :=
  match s.lookup "timestamp" with
  | none => some false
  | some t => (Ressource.asDouble t).map since.le

/-- `Ressource::getHistory(out, since)`: the samples it appends. -/
def getHistoryJson (since : Double) (r : Ressource) : Option (List Sample) :=
  r.visited.foldlM (fun out s =>
    (isReported since s).map (fun b => if b then out ++ [s] else out)) []

/-- `Ressource::getHistory(since)`. -/
def getHistoryText (render : Sample → String) (since : Double) (r : Ressource) :
    Option String := do
  let (ss, _) ← r.visited.foldlM (fun (c : String × Bool) s =>
    (isReported since s).map (fun b =>
      let (ss, splitted) := c
      if b then ((if splitted then ss else ss ++ ",\n") ++ render s, false) else (ss, splitted)))
    ("[\n", true)
  return ss ++ "\n]\n"

/-- With a number the readers are those of the ressource. -/
theorem getHistoryJson_num (since : ℚ) (r : Ressource) :
    getHistoryJson (.num since) r = r.getHistoryJson since := rfl

theorem getHistoryText_num (render : Sample → String) (since : ℚ) (r : Ressource) :
    getHistoryText render (.num since) r = r.getHistoryText render since := rfl

/-- The document of `service::getJsonLogHistory`. An entry has the name of its parser as
`source`. -/
structure LogDoc where
  entries : List (String × LogEntry) := []
  host : String := ""

/-- `service::getJsonLogHistory`. The index of its loop is an `int` like that of the other
readers. Every entry has a time, which `parseLog` sets. -/
def getJsonLogHistory (host : String) (parsers : List (String × LogParser)) (since : Double) :
    LogDoc where
  entries := parsers.flatMap (fun i =>
    let visited := if i.2.v.length ≤ 0x80000000 then i.2.v.reverse else []
    (visited.filter (fun e => since.le e.timestamp)).map (fun e => (i.1, e)))
  host := host

/-! ### Documents and responses -/

/-- The histories of a collector by the names of its ressources. -/
abbrev CollectorDoc := List (String × List Sample)

/-- A member of `res["services"]` of `doGetAllJson`. -/
structure ServiceDoc where
  status : StatusDoc := {}
  logs : LogDoc := {}
  collectors : List (String × CollectorDoc) := []

/-- The documents of the handlers. -/
inductive Document where
  | all (timestamp : Int) (services : List (String × ServiceDoc))
      (system : List (String × CollectorDoc))
  | logs (services : List (String × LogDoc))
  | log (doc : LogDoc)
  | error (text : String)

/-- The texts of the JSON library: `operator<<` for a document and for a sample, and
`writeString` without indentation. -/
structure JsonWriter where
  stream : Document → String
  shortest : Document → String
  sample : Sample → String

/-- `setResponse404`. -/
def setResponse404 (content : String) : String :=
  "HTTP/1.1 404 Not found\r\nServer: watched.agent\r\nContent-Length: " ++ toString content.length
    ++ "\r\n\r\n" ++ content

/-- `setResponseHtml`. -/
def setResponseHtml (content : String) : String :=
  "HTTP/1.1 200 OK\r\nServer: watched.agent\r\nContent-Type:text/html; charset=UTF-8\r\n"
    ++ "Content-Length: " ++ toString content.length ++ "\r\n\r\n" ++ content

/-- `setResponseJson`. -/
def setResponseJson (content : String) : String :=
  "HTTP/1.1 200 OK\r\nServer: watched.agent\r\nContent-Type:application/json\r\n"
    ++ "Access-Control-Allow-Origin:*\r\nContent-Length: " ++ toString content.length
    ++ "\r\n\r\n" ++ content

/-! ### The handlers -/

/-- A service with its log parsers by the names of the files. -/
structure LoggedService extends HostService where
  parsers : List (String × LogParser) := []

/-- What the handlers read: the collectors and the services, the table of routes, and the
ressources that an object holds by their names. -/
structure Agent where
  systemCollectors : List (String × RoutedCollector) := []
  services : List LoggedService := []
  resource : List (String × Route) := []
  ressource : Nat → String → Ressource := fun _ _ => { typeName := "", size := 0 }

/-- What is the same for all requests: the system, the time, and the JSON library. -/
structure Host where
  env : Env
  os : OsState
  now : Int
  writer : JsonWriter

/-- `res[key]` is changed, and made first where it is not there. -/
def modifyMember {α : Type} (key : String) (new : α) (f : α → α) (res : List (String × α)) :
    List (String × α) :=
  OrderedMap.insert key (f ((res.lookup key).getD new)) res

namespace Agent

/-- `Collector::getJsonHistory`. -/
def getJsonHistory (a : Agent) (c : RoutedCollector) (since : Double) : Option CollectorDoc :=
  c.ressources.mapM (fun r =>
    (getHistoryJson since (a.ressource c.obj r.1)).map (fun v => (r.1, v)))

/-- `service::getJsonCollectorHistory`, and `CollectorsManager::getSystemJson`. -/
def getJsonCollectorHistory (a : Agent) (collectors : List (String × RoutedCollector))
    (since : Double) (ref : List (String × CollectorDoc)) : Option (List (String × CollectorDoc)) :=
  collectors.foldlM (fun ref i =>
    (a.getJsonHistory i.2 since).map (fun doc => OrderedMap.insert i.1 doc ref)) ref

/-- A turn of the loop of `doGetAllJson`: the service afterwards, and `res["services"]`. The
handler may give the service a name, so its identifier is read each time. -/
def serviceJson (h : Host) (a : Agent) (since : Double) (i : LoggedService)
    (res : List (String × ServiceDoc)) : Option (LoggedService × List (String × ServiceDoc)) := do
  let res := OrderedMap.insert i.getID {} res
  -- The member for the status is looked up before the handler runs.
  let key := i.getID
  let (s, status) ← i.toService.getJsonStatus h.env h.os
  let i := { i with toService := s }
  let res := modifyMember key {} (fun doc => { doc with status }) res
  let logs := getJsonLogHistory i.host i.parsers since
  let res := modifyMember i.getID {} (fun doc => { doc with logs }) res
  let doc := (res.lookup i.getID).getD {}
  let collectors ← a.getJsonCollectorHistory i.collectors since doc.collectors
  return (i, OrderedMap.insert i.getID { doc with collectors } res)

/-- The loop: the services afterwards, and `res["services"]`. -/
def servicesJson (h : Host) (a : Agent) (since : Double) :
    Option (List LoggedService × List (String × ServiceDoc)) :=
  a.services.foldlM (fun c i =>
    (a.serviceJson h since i c.2).map (fun r => (c.1 ++ [r.1], r.2))) ([], [])

/-- `servicesManager::doGetAllJson`: the agent afterwards, and what is written. -/
def doGetAllJson (h : Host) (a : Agent) (args : List (String × String)) :
    Option (Agent × String) := do
  let since ← sinceOf args
  let (services, res) ← a.servicesJson h since
  let a := { a with services }
  let system ← a.getJsonCollectorHistory a.systemCollectors since []
  return (a, setResponseJson (h.writer.shortest (.all h.now res system)))

/-- `servicesManager::doGetServiceLog`. -/
def doGetServiceLog (h : Host) (a : Agent) (request : List String)
    (args : List (String × String)) : Option String := do
  let id := request[0]?.getD ""
  let since ← sinceOf args
  if id = "all" then
    let res := a.services.foldl (fun res i =>
      OrderedMap.insert i.getID (getJsonLogHistory i.host i.parsers since) res) []
    return setResponseJson (h.writer.stream (.logs res))
  else
    match a.services.find? (fun i => i.getID == id) with
    | some i =>
        return setResponseJson (h.writer.stream (.log (getJsonLogHistory i.host i.parsers since)))
    | none =>
        return setResponseJson
          (h.writer.stream (.error ("No service matching '" ++ id ++ "' found")))

/-- `Collector::doGetHistory`. -/
def doGetHistory (h : Host) (a : Agent) (c : RoutedCollector) (request : List String)
    (args : List (String × String)) : Option String := do
  let name := request[0]?.getD ""
  let since ← sinceOf args
  if c.ressources.any (fun r => r.1 == name) then
    let content ← getHistoryText h.writer.sample since (a.ressource c.obj name)
    return setResponseJson content
  else
    return setResponse404 "No such Metric"

/-- `servicesManager::doGetCollectorHistory`. -/
def doGetCollectorHistory (h : Host) (a : Agent) (request : List String)
    (args : List (String × String)) : Option String :=
  let id := request[0]?.getD ""
  let cid := request[1]?.getD ""
  match a.services.find? (fun i => i.getID == id) with
  | none =>
      some (setResponseJson (h.writer.stream (.error ("No service matching '" ++ id ++ "' found"))))
  | some i =>
      match i.collectors.lookup cid with
      | none =>
          some (setResponseJson (h.writer.stream (.error
            ("No collector matching '" ++ cid ++ "' for service '" ++ id ++ "' found"))))
      -- The request goes on without the two identifiers.
      | some c => a.doGetHistory h c (request.drop 2) args

/-! ### The server -/

/-- The collectors that exist. -/
def objects (a : Agent) : List RoutedCollector :=
  a.systemCollectors.map Prod.snd ++ a.services.flatMap (fun i => i.collectors.map Prod.snd)

end Agent

/-- What a request leads to. A handler that throws writes nothing. `undefined` is a call on an
object that is gone, and `other` the other handlers and the files. -/
inductive Outcome where
  | response (text : String)
  | nothing
  | undefined
  | other
  deriving DecidableEq

/-- The lambda of `setRegex`: what the handler wrote goes to the response when it returns. -/
def Outcome.of : Option String → Outcome
  | some text => .response text
  | none => .nothing

namespace Agent

/-- `find_resource`: the first route whose expression matches the whole path. -/
def find_resource (a : Agent) (path : String) : Option (Route × List String) :=
  a.resource.findSome? (fun e => (regexMatch e.1 path).map (fun gs => (e.2, gs)))

/-- What a route answers, with the groups of the match. The loop of `setRegex` goes one group
too far, and gets an empty text for it. -/
def respond (h : Host) (a : Agent) (args : List (String × String)) (route : Route)
    (groups : List String) : Outcome :=
  let request := groups ++ [""]
  match route with
  | .doGetHistory obj =>
      match a.objects.find? (fun c => c.obj == obj) with
      | none => .undefined
      | some c => .of (a.doGetHistory h c request args)
  | .doGetGraph _ => .other
  | .doGetCollectorHistory => .of (a.doGetCollectorHistory h request args)
  | .manager name =>
      if name = "doGetAllJson" then .of ((a.doGetAllJson h args).map Prod.snd)
      else if name = "doGetServiceLog" then .of (a.doGetServiceLog h request args)
      else .other

/-- A GET. The pairs of the query string come in any order. -/
def get (h : Host) (a : Agent) (path : String) (args : List (String × String)) : Outcome :=
  match a.find_resource path with
  | none => .other
  | some (route, groups) => a.respond h args route groups

/-- The agent as `Model.Routes` has it. -/
def routes (a : Agent) : Routes.State where
  systemCollectors := a.systemCollectors
  services := a.services.map LoggedService.toHostService
  resource := a.resource

end Agent

end WatchedAgent.Model.Requests
