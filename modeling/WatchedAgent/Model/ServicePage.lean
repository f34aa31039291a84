import WatchedAgent.Model.Requests

/-!
# `WatchedAgent.Model.ServicePage`: the page of a service

`servicesManager::doGetServiceHtml` with the head and the foot of every page. The page is put
together from the documents of `getJsonStatus` and `getJsonLogHistory`, and the texts of the
documents go into it as they are. The part of the collectors is a parameter (`indexHtml`).
-/

set_option autoImplicit false

namespace WatchedAgent.Model.ServicePage

open WatchedAgent.Model.Requests
open WatchedAgent.Model.Routes (RoutedCollector)

/-! ### Every page -/

def APPS_NAME : String := "watched.agent"

/-- The head before `p_sub`. -/
def headTop (p_title : String) : String :=
  "<!DOCTYPE html>\n<html><head>\n<meta charset=\"utf-8\">\n"
    ++ "<meta http-equiv=\"X-UA-Compatible\" content=\"IE=edge\">\n"
    ++ ("<title>" ++ APPS_NAME ++ " - " ++ p_title ++ "</title>\n")
    ++ ("<meta content=\"width=device-width, initial-scale=1, maximum-scale=1, "
      ++ "user-scalable=no\" name=\"viewport\">\n")
    ++ "<link rel=\"shortcut icon\" href=\"/favicon.ico\">\n"
    ++ "<link rel=\"stylesheet\" href=\"/css/bootstrap.min.css\">\n"
    ++ "<link rel=\"stylesheet\" href=\"/css/AdminLTE.min.css\">\n"
    ++ "<link rel=\"stylesheet\" href=\"/css/skin-blue.css\">\n"
    ++ "<link rel=\"stylesheet\" href=\"/css/font-awesome.min.css\">\n"
    ++ "<link rel=\"stylesheet\" href=\"/css/ionicons.min.css\">\n"
    ++ "<link rel=\"stylesheet\" href=\"/css/watched.css\">\n</head>"
    ++ "<body class=\"hold-transition skin-blue sidebar-collapse sidebar-mini\">\n"
    ++ "<div class=\"wrapper\">\n<header class=\"main-header\"><a href=\"/\" class=\"logo\"> "
    ++ "<span class=\"logo-mini\">"
    ++ "<img src=\"/pic/watched32x32.png\" height=\"32\" width=\"32\" /></span></a>"
    ++ "<nav class=\"navbar navbar-static-top\"><a class=\"navbar-brand\" href=\"#\"><b>"
    ++ APPS_NAME
    ++ "</b></a><div class=\"navbar-custom-menu\"><ul class=\"nav navbar-nav\"></ul></div>"
    ++ "</nav></header>\n<aside class=\"main-sidebar\"><section class=\"sidebar\">"
    ++ "<ul class=\"sidebar-menu\"></ul></section></aside>\n<div class=\"content-wrapper\">"
    ++ "<section class=\"content-header\"><h1>" ++ p_title ++ "<small>"

/-- `HttpServer::getHead`. -/
def getHead (p_title p_sub : String) : String :=
  headTop p_title ++ p_sub ++ "</small></h1></section><section class=\"content\">\n"

/-- `HttpServer::getFoot`. -/
def getFoot (p_script : String) : String :=
  "</section></div><footer class=\"main-footer\"><div class=\"pull-right hidden-xs\">"
    ++ "<b>Version</b> 0.1.0    </div><strong>Copyright &copy; 2016"
    ++ "<a href=\"https://github.com/sebt3\">Sébastien Huss</a>.</strong> All rights reserved."
    ++ "</footer></div>\n<script src=\"/js/jquery-2.2.3.min.js\"></script>\n"
    ++ "<script src=\"/js/bootstrap.min.js\"></script>\n<script src=\"/js/adminlte.min.js\">"
    ++ "</script>\n<script src=\"/js/d3.v4.min.js\"></script>\n<script src=\"/js/watched.js\">"
    ++ "</script>\n<script src=\"/js/watched.line.js\"></script>\n<script>\n" ++ p_script
    ++ "</script>\n</body>\n</html>\n"

/-! ### The tables -/

/-- The start of a box with a table. -/
def boxTop (title : String) : String :=
  "<div class=\"box box-default\"><div class=\"box-header with-border\"><h3 class=\"box-title\">"
    ++ title ++ "</h3></div><div class=\"box-body\">"
    ++ "<table class=\"table table-striped table-hover\">"

/-- The start of a box whose table has a row of column names. -/
def tableTop (title : String) (columns : List String) : String :=
  boxTop title ++ "<thead><tr>" ++ String.join (columns.map (fun c => "<th>" ++ c ++ "</th>"))
    ++ "</tr></thead><tbody>\n"

/-- A box with such a table. -/
def tableBox (title : String) (columns rows : List String) : String :=
  tableTop title columns ++ String.join rows ++ "</tbody></table></div></div>"

/-- The box of the properties. -/
def propertiesBox (res : StatusDoc) : String :=
  boxTop "Properties" ++ "<tr><th>name</th><td>" ++ res.name
    ++ "</td></tr><tr><th>type</th><td>" ++ res.type
    ++ "</td></tr><tr><th>subType</th><td>" ++ res.subType
    ++ "</td></tr><tr><th>Identifier</th><td>" ++ res.uniqName
    ++ "</td></tr><tr><th>hostname</th><td>" ++ res.host ++ "</td></tr></table></div></div>"

/-- The colour of a status. -/
def color (status : String) : String := if status = "ok" then "green" else "red"

/-- The row of a socket. -/
def socketRow (j : SocketStatus) : String :=
  "<tr><td>" ++ j.name ++ ("</td><td class=\"text-" ++ color j.status ++ "\">") ++ j.status
    ++ "</td></tr>\n"

/-- The row of a process, in both tables. -/
def processRow (name full_path cwd username pid status : String) : String :=
  "<tr><td>" ++ name ++ "</td><td>" ++ full_path ++ "</td><td>" ++ cwd ++ "</td><td>" ++ username
    ++ "</td><td>" ++ pid ++ ("</td><td class=\"text-" ++ color status ++ "\">") ++ status
    ++ "</td></tr>\n"

/-- An element of `process`. A member that is not there is an empty text. -/
def mainRow (j : ProcessStatus) : String :=
  processRow j.name j.fullPath (j.cwd.getD "") (j.username.getD "") ((j.pid.map toString).getD "")
    j.status

/-- An element of `subprocess`. It has no member `status`. The iterator goes through the elements
that were written, so one that was skipped has no row. -/
def subRow : Option SubprocessStatus → String
  | none => ""
  | some j => processRow j.name j.fullPath j.cwd j.username (toString j.pid) ""

/-- The row of a log entry. -/
def logRow (j : String × LogEntry) : String :=
  "<tr><td>" ++ j.2.level ++ "</td><td>" ++ j.2.dateMark ++ "</td><td>" ++ j.1 ++ "</td><td>"
    ++ toString j.2.lineNo ++ "</td><td>" ++ String.ofList j.2.text ++ "</td></tr>\n"

/-! ### The page -/

/-- The page up to the log entries. -/
def statusHtml (id : String) (res : StatusDoc) : String :=
  getHead "Service" id
    ++ "<div class=\"row\"><div class=\"col-md-4\">" ++ propertiesBox res
    ++ (if res.sockets = [] then ""
      else tableBox "Sockets" ["listen", "status"] (res.sockets.map socketRow))
    ++ "</div><div class=\"col-md-8\">"
    ++ tableBox "Process" ["name", "path", "cwd", "username", "PID", "status"]
      (res.process.map mainRow)
    ++ (if res.subprocess = [] then ""
      else tableBox "subProcess" ["name", "path", "cwd", "username", "PID"]
        (res.subprocess.map subRow))

/-- The page up to the collectors. -/
def pageTop (id : String) (res : StatusDoc) (logs : LogDoc) : String :=
  statusHtml id res
    ++ (if logs.entries = [] then ""
      else tableBox "Log entries" ["level", "date", "source", "line #", "text"]
        (logs.entries.map logRow))
    ++ "</div></div>\n<div class=\"row\">"

/-- The page of a service. -/
def page (id : String) (res : StatusDoc) (logs : LogDoc) (collectorsHtml : String) : String :=
  pageTop id res logs ++ (collectorsHtml ++ "</div>\n" ++ getFoot "")

/-- `service::getCollectorsHtml`. `indexHtml` is `Collector::getIndexHtml`. -/
def getCollectorsHtml (indexHtml : RoutedCollector → String) (i : LoggedService) : String :=
  String.join (i.collectors.map (fun e => indexHtml e.2))

/-- `servicesManager::doGetServiceHtml`: the service afterwards and its page, or the text of the
error. `none` is an exception of the handler of the service. -/
def doGetServiceHtml (h : Host) (indexHtml : RoutedCollector → String) (a : Agent)
    (request : List String) : Option (Except String (LoggedService × String)) :=
  let id := request[0]?.getD ""
  match a.services.find? (fun i => i.getID == id) with
  | none => some (.error ("No service matching '" ++ id ++ "' found"))
  | some i => do
      -- The head is written before the handler may give the service a name.
      let head := i.getID
      let (s, res) ← i.toService.getJsonStatus h.env h.os
      let i := { i with toService := s }
      let logs := getJsonLogHistory i.host i.parsers (.num (-1))
      return .ok (i, page head res logs (getCollectorsHtml indexHtml i))

end WatchedAgent.Model.ServicePage
