import WatchedAgent.Lib.Html
import WatchedAgent.Lib.Numeral
import WatchedAgent.Model.ServicePage

/-!
# `WatchedAgent.Proofs.ServicePages`: monitored texts on the page of a service

Two runs of `doGetServiceHtml` on services that differ in monitored texts alone
(`OtherwiseSame`): the texts and the date marks of log entries, and the paths, the working
directories and the user names of processes. The texts go into the page as they are. So the
pages have the same tags and attributes when the two values of each text are alike, and the
other texts of the service end outside of a tag (`same_tags`). Texts in which no `<` starts
markup are alike (`Html.alike_of_inert`). `not_same_script` is a log line with a `script`.
-/

set_option autoImplicit false

namespace WatchedAgent.Proofs.ServicePages

open WatchedAgent.Lib
open WatchedAgent.Lib.Html
open WatchedAgent.Model
open WatchedAgent.Model.Requests
open WatchedAgent.Model.Routes (RoutedCollector)
open WatchedAgent.Model.ServicePage

/-! ### The markup of the source -/

theorem closed_headTop : Closed (headTop "Service") := by
  have htitle : Closed ("<title>" ++ APPS_NAME ++ " - " ++ "Service" ++ "</title>\n") := by
    decide +kernel
  have hstart : Closed ("<!DOCTYPE html>\n<html><head>\n<meta charset=\"utf-8\">\n"
      ++ "<meta http-equiv=\"X-UA-Compatible\" content=\"IE=edge\">\n") :=
    .append (.of_chars rfl) (.of_chars rfl)
  unfold headTop
  iterate 19 refine .append ?_ (.of_chars rfl)
  exact .append (hstart.append htitle) (.of_append rfl)

theorem closed_boxTop {title : String} (h : Closed title) : Closed (boxTop title) := by
  unfold boxTop
  exact .append (.append (.append (.of_chars rfl) h) (.of_chars rfl)) (.of_chars rfl)

theorem closed_tableTop {title : String} (htitle : Closed title) {columns : List String}
    (hcolumns : ∀ c ∈ columns, Closed ("<th>" ++ c ++ "</th>")) :
    Closed (tableTop title columns) := by
  have hnames : Closed (String.join (columns.map (fun c => "<th>" ++ c ++ "</th>"))) := by
    refine (Same.join (List.forall₂_same.mpr fun c hc => ?_)).left
    obtain ⟨d, hd, rfl⟩ := List.mem_map.mp hc
    exact .of_closed (hcolumns d hd)
  unfold tableTop
  exact .append (.append (.append (closed_boxTop htitle) (.of_chars rfl)) hnames) (.of_chars rfl)

/-- A table whose rows have the same tags. -/
theorem same_tableBox {title : String} (htitle : Closed title) {columns : List String}
    (hcolumns : ∀ c ∈ columns, Closed ("<th>" ++ c ++ "</th>")) {rows rows' : List String}
    (h : List.Forall₂ Same rows rows') :
    Same (tableBox title columns rows) (tableBox title columns rows') := by
  have htop : Same (tableTop title columns) (tableTop title columns) :=
    .of_closed (closed_tableTop htitle hcolumns)
  exact (htop.append (.join h)).const (.of_chars rfl)

/-- A table that is left out when it has no rows. -/
theorem same_optional {title : String} (htitle : Closed title) {columns : List String}
    (hcolumns : ∀ c ∈ columns, Closed ("<th>" ++ c ++ "</th>")) {α : Type} {row : α → String}
    {l l' : List α} (h : List.Forall₂ (fun a b => Same (row a) (row b)) l l') :
    Same (if l = [] then "" else tableBox title columns (l.map row))
      (if l' = [] then "" else tableBox title columns (l'.map row)) := by
  -- The lists have one length, so the table is left out on both sides or on none.
  cases h with
  | nil => exact .of_closed rfl
  | cons hfirst hrest =>
      rw [if_neg (List.cons_ne_nil _ _), if_neg (List.cons_ne_nil _ _)]
      refine same_tableBox htitle hcolumns ?_
      rw [List.forall₂_map_left_iff, List.forall₂_map_right_iff]
      exact .cons hfirst hrest

theorem alike_toString (n : Nat) : Alike (toString n) (toString n) := by
  have hinert : inert (toString n).toList = true := by
    refine inert_of_not_mem ?_
    rw [Text.toList_nat]
    exact Text.not_mem_toDigits Text.isBase_ten (by decide)
  exact alike_of_inert hinert hinert

/-! ### Services that differ in monitored texts -/

section Otherwise

variable (R : String → String → Prop) (S : String → Prop)

/-- One text on both sides. -/
def Fixed (a b : String) : Prop := a = b ∧ S a

/-- Two elements of `process`: `R` relates the monitored texts, and `S` holds of the others. The
name is taken from the path. -/
structure OtherProcess (p p' : ProcessStatus) : Prop where
  name : R p.name p'.name
  fullPath : R p.fullPath p'.fullPath
  cwd : R (p.cwd.getD "") (p'.cwd.getD "")
  username : R (p.username.getD "") (p'.username.getD "")
  pid : p.pid = p'.pid
  status : Fixed S p.status p'.status

/-- Two elements of `subprocess`. -/
structure OtherSubprocess (p p' : SubprocessStatus) : Prop where
  name : R p.name p'.name
  fullPath : R p.fullPath p'.fullPath
  cwd : R p.cwd p'.cwd
  username : R p.username p'.username
  pid : p.pid = p'.pid

/-- Two sockets. -/
structure OtherSocket (i i' : SocketStatus) : Prop where
  name : Fixed S i.name i'.name
  status : Fixed S i.status i'.status

/-- Two status documents. -/
structure OtherStatus (d d' : StatusDoc) : Prop where
  sockets : List.Forall₂ (OtherSocket S) d.sockets d'.sockets
  process : List.Forall₂ (OtherProcess R S) d.process d'.process
  subprocess : List.Forall₂ (Option.Rel (OtherSubprocess R)) d.subprocess d'.subprocess
  name : Fixed S d.name d'.name
  type : Fixed S d.type d'.type
  subType : Fixed S d.subType d'.subType
  uniqName : Fixed S d.uniqName d'.uniqName
  host : Fixed S d.host d'.host

/-- Two log entries. -/
structure OtherEntry (e e' : LogEntry) : Prop where
  timestamp : e.timestamp = e'.timestamp
  lineNo : e.lineNo = e'.lineNo
  level : Fixed S e.level e'.level
  dateMark : R e.dateMark e'.dateMark
  text : R (String.ofList e.text) (String.ofList e'.text)

/-- Two log parsers by the names of their files. -/
structure OtherParser (p p' : String × LogParser) : Prop where
  source : Fixed S p.1 p'.1
  v : List.Forall₂ (OtherEntry R S) p.2.v p'.2.v

/-- Two agents have a service with the identifier. The services differ in monitored texts
alone, in their logs and in what their status documents say. -/
structure OtherwiseSame (h h' : Host) (a a' : Agent) (id : String) (i i' : LoggedService)
    (r r' : Service × StatusDoc) : Prop where
  found : a.services.find? (fun i => i.getID == id) = some i
  found' : a'.services.find? (fun i => i.getID == id) = some i'
  answers : i.toService.getJsonStatus h.env h.os = some r
  answers' : i'.toService.getJsonStatus h'.env h'.os = some r'
  id : Fixed S i.getID i'.getID
  status : OtherStatus R S r.2 r'.2
  parsers : List.Forall₂ (OtherParser R S) i.parsers i'.parsers
  collectors : i.collectors = i'.collectors

end Otherwise

/-! ### The rows -/

/-- The text of a cell that is the same on both sides. -/
theorem Fixed.alike {a b : String} (h : Fixed EndsOutside a b) : Alike a b := by
  obtain ⟨rfl, houtside⟩ := h
  exact .of_endsOutside houtside

/-- The cell before a status, in its colour. -/
theorem tail_color (status : String) :
    Tail ("</td><td class=\"text-" ++ color status ++ "\">") := by
  unfold color
  split
  · decide +kernel
  · decide +kernel

theorem same_processRow
    {name name' full_path full_path' cwd cwd' username username' pid status : String}
    (hname : Alike name name') (hpath : Alike full_path full_path') (hcwd : Alike cwd cwd')
    (husername : Alike username username') (hpid : Alike pid pid) (hstatus : EndsOutside status) :
    Same (processRow name full_path cwd username pid status)
      (processRow name' full_path' cwd' username' pid status) := by
  have hcell : Tail "</td><td>" := .of_chars rfl
  have hstart : Same "<tr><td>" "<tr><td>" := .of_closed (.of_chars rfl)
  unfold processRow
  refine .cell ?_ (.of_endsOutside hstatus) (.of_chars rfl)
  refine .cell ?_ hpid (tail_color status)
  refine .cell ?_ husername hcell
  refine .cell ?_ hcwd hcell
  refine .cell ?_ hpath hcell
  exact .cell hstart hname hcell

theorem same_mainRow {p p' : ProcessStatus} (h : OtherProcess Alike EndsOutside p p') :
    Same (mainRow p) (mainRow p') := by
  have hpid : Alike ((p.pid.map toString).getD "") ((p.pid.map toString).getD "") := by
    cases p.pid with
    | none => exact .of_endsOutside (by decide)
    | some pid => exact alike_toString pid
  unfold mainRow
  rw [← h.status.1, ← h.pid]
  exact same_processRow h.name h.fullPath h.cwd h.username hpid h.status.2

theorem same_subRow {p p' : Option SubprocessStatus}
    (h : Option.Rel (OtherSubprocess Alike) p p') : Same (subRow p) (subRow p') := by
  cases h with
  | none => exact .of_closed (.of_chars rfl)
  | some h =>
      dsimp only [subRow]
      rw [← h.pid]
      exact same_processRow h.name h.fullPath h.cwd h.username (alike_toString _) (by decide)

theorem same_socketRow {i i' : SocketStatus} (h : OtherSocket EndsOutside i i') :
    Same (socketRow i) (socketRow i') := by
  unfold socketRow
  rw [← h.name.1, ← h.status.1]
  refine .cell ?_ (.of_endsOutside h.status.2) (.of_chars rfl)
  exact .cell (.of_closed (.of_chars rfl)) (.of_endsOutside h.name.2) (tail_color i.status)

/-- The row of an entry, with the name of its file. -/
theorem same_logRow {e e' : String × LogEntry} (hsource : Fixed EndsOutside e.1 e'.1)
    (h : OtherEntry Alike EndsOutside e.2 e'.2) : Same (logRow e) (logRow e') := by
  have hcell : Tail "</td><td>" := .of_chars rfl
  unfold logRow
  rw [← h.lineNo]
  refine .cell ?_ h.text (.of_chars rfl)
  refine .cell ?_ (alike_toString _) hcell
  refine .cell ?_ hsource.alike hcell
  refine .cell ?_ h.dateMark hcell
  exact .cell (.of_closed (.of_chars rfl)) h.level.alike hcell

/-! ### The log entries -/

/-- With `since = -1` every entry that is visited is in the document. -/
theorem entries_eq (host : String) (parsers : List (String × LogParser)) :
    (getJsonLogHistory host parsers (.num (-1))).entries = parsers.flatMap (fun i =>
      (if i.2.v.length ≤ 0x80000000 then i.2.v.reverse else []).map (fun e => (i.1, e))) := by
  have hall : ∀ l : List LogEntry,
      l.filter (fun e => Strtod.Double.le e.timestamp (.num (-1))) = l := by
    intro l
    refine List.filter_eq_self.mpr fun e _ => ?_
    have hle : (-1 : ℚ) ≤ e.timestamp := le_trans (by norm_num) (Nat.cast_nonneg e.timestamp)
    exact decide_eq_true hle
  unfold getJsonLogHistory
  dsimp only
  simp only [hall]

/-- The rows of the log entries. -/
theorem same_entries {parsers parsers' : List (String × LogParser)}
    (h : List.Forall₂ (OtherParser Alike EndsOutside) parsers parsers') (host host' : String) :
    List.Forall₂ (fun e e' => Same (logRow e) (logRow e'))
      (getJsonLogHistory host parsers (.num (-1))).entries
      (getJsonLogHistory host' parsers' (.num (-1))).entries := by
  rw [entries_eq, entries_eq]
  induction h with
  | nil => exact .nil
  | @cons i i' l l' hparser _ ih =>
      rw [List.flatMap_cons, List.flatMap_cons]
      refine List.rel_append ?_ ih
      -- Both parsers have as many entries, so both are visited or neither is.
      rw [List.forall₂_map_left_iff, List.forall₂_map_right_iff, ← hparser.v.length_eq]
      split
      · refine List.rel_reverse ?_
        exact hparser.v.imp fun e e' he =>
          show Same (logRow (i.1, e)) (logRow (i'.1, e')) from same_logRow hparser.source he
      · exact .nil

/-! ### The page -/

theorem same_propertiesBox {d d' : StatusDoc} (h : OtherStatus Alike EndsOutside d d') :
    Same (propertiesBox d) (propertiesBox d') := by
  unfold propertiesBox
  refine .cell ?_ h.host.alike (.of_chars rfl)
  refine .cell ?_ h.uniqName.alike (.of_chars rfl)
  refine .cell ?_ h.subType.alike (.of_chars rfl)
  refine .cell ?_ h.type.alike (.of_chars rfl)
  refine .cell ?_ h.name.alike (.of_chars rfl)
  exact .const (.of_closed (closed_boxTop (.of_chars rfl))) (.of_chars rfl)

theorem same_statusHtml {id id' : String} (hid : Fixed EndsOutside id id') {d d' : StatusDoc}
    (h : OtherStatus Alike EndsOutside d d') : Same (statusHtml id d) (statusHtml id' d') := by
  have hhead : Same (getHead "Service" id) (getHead "Service" id') :=
    .cell (.of_closed closed_headTop) hid.alike (.of_chars rfl)
  have hsocketColumns : ∀ c ∈ ["listen", "status"], Closed ("<th>" ++ c ++ "</th>") := by
    decide +kernel
  have hprocessColumns : ∀ c ∈ ["name", "path", "cwd", "username", "PID", "status"],
      Closed ("<th>" ++ c ++ "</th>") := by
    decide +kernel
  have hsubColumns : ∀ c ∈ ["name", "path", "cwd", "username", "PID"],
      Closed ("<th>" ++ c ++ "</th>") :=
    fun c hc => hprocessColumns c ((List.mem_append_left ["status"] hc : c ∈ _ ++ _))
  have hsockets : List.Forall₂ (fun i i' => Same (socketRow i) (socketRow i')) d.sockets
      d'.sockets := h.sockets.imp fun _ _ => same_socketRow
  have hprocess : List.Forall₂ Same (d.process.map mainRow) (d'.process.map mainRow) := by
    rw [List.forall₂_map_left_iff, List.forall₂_map_right_iff]
    exact h.process.imp fun _ _ => same_mainRow
  have hsubprocess : List.Forall₂ (fun p p' => Same (subRow p) (subRow p')) d.subprocess
      d'.subprocess := h.subprocess.imp fun _ _ => same_subRow
  unfold statusHtml
  refine .append ?_ (same_optional (.of_chars rfl) hsubColumns hsubprocess)
  refine .append ?_ (same_tableBox (.of_chars rfl) hprocessColumns hprocess)
  refine .const ?_ (.of_chars rfl)
  refine .append ?_ (same_optional (.of_chars rfl) hsocketColumns hsockets)
  refine .append ?_ (same_propertiesBox h)
  exact hhead.const (.of_chars rfl)

/-- The columns of the log entries. -/
theorem closed_logColumns : ∀ c ∈ ["level", "date", "source", "line #", "text"],
    Closed ("<th>" ++ c ++ "</th>") := by decide +kernel

theorem same_pageTop {id id' : String} (hid : Fixed EndsOutside id id') {d d' : StatusDoc}
    (h : OtherStatus Alike EndsOutside d d') {logs logs' : LogDoc}
    (hlogs : List.Forall₂ (fun e e' => Same (logRow e) (logRow e')) logs.entries logs'.entries) :
    Same (pageTop id d logs) (pageTop id' d' logs') := by
  unfold pageTop
  refine .const ?_ (.of_chars rfl)
  exact .append (same_statusHtml hid h) (same_optional (.of_chars rfl) closed_logColumns hlogs)

/-- What stands after the part with monitored texts is the same on both pages. -/
theorem tags_page {id id' : String} {d d' : StatusDoc} {logs logs' : LogDoc}
    (collectorsHtml : String) (h : Same (pageTop id d logs) (pageTop id' d' logs')) :
    tags (page id d logs collectorsHtml) = tags (page id' d' logs' collectorsHtml) := by
  unfold page
  rw [h.left.tags_append, h.right.tags_append, h.tags]

/-- The page of the service that has the identifier. -/
theorem doGetServiceHtml_eq {h : Host} {indexHtml : RoutedCollector → String} {a : Agent}
    {request : List String} {i : LoggedService} {r : Service × StatusDoc}
    (hfound : a.services.find? (fun i => i.getID == request[0]?.getD "") = some i)
    (hanswers : i.toService.getJsonStatus h.env h.os = some r) :
    doGetServiceHtml h indexHtml a request = some (.ok ({ i with toService := r.1 },
      page i.getID r.2 (getJsonLogHistory r.1.host i.parsers (.num (-1)))
        (getCollectorsHtml indexHtml i))) := by
  unfold doGetServiceHtml
  dsimp only
  rw [hfound]
  dsimp only
  rw [hanswers]
  rfl

/-- The pages of two services that differ in monitored texts alone have the same tags and
attributes, where the two values of each text are alike, and the other texts end outside of a
tag. -/
theorem same_tags (h h' : Host) (indexHtml : RoutedCollector → String) (a a' : Agent)
    (request : List String) (i i' : LoggedService) (r r' : Service × StatusDoc)
    (hsame : OtherwiseSame Alike EndsOutside h h' a a' (request[0]?.getD "") i i' r r') :
    ∃ s s' text text', doGetServiceHtml h indexHtml a request = some (.ok (s, text)) ∧
      doGetServiceHtml h' indexHtml a' request = some (.ok (s', text')) ∧
      tags text = tags text' := by
  refine ⟨_, _, _, _, doGetServiceHtml_eq hsame.found hsame.answers,
    doGetServiceHtml_eq hsame.found' hsame.answers', ?_⟩
  have hcollectors : getCollectorsHtml indexHtml i = getCollectorsHtml indexHtml i' := by
    unfold getCollectorsHtml
    rw [hsame.collectors]
  rw [hcollectors]
  exact tags_page _ (same_pageTop hsame.id hsame.status (same_entries hsame.parsers _ _))

/-! ### A service with one log entry -/

/-- The entry. -/
def webEntry (text : String) : LogEntry where
  timestamp := 1
  dateMark := "now"
  lineNo := 1
  text := text.toList
  level := "info"

/-- The service, with the name of its log file. -/
def webService (source text : String) : LoggedService where
  name := "web"
  uniqName := "host"
  parsers := [(source, { v := [webEntry text] })]

/-- An agent with that service alone. -/
def webAgent (source text : String) : Agent := { services := [webService source text] }

/-- A system where nothing runs. -/
def idleHost : Host where
  env := {}
  os := {}
  now := 0
  writer := { stream := fun _ => "null", shortest := fun _ => "null", sample := fun _ => "null" }

/-- The status document of the service. -/
def webStatus : StatusDoc := { name := "web", type := "unknown", uniqName := "host" }

theorem find?_web (source text : String) :
    (webAgent source text).services.find? (fun i => i.getID == "web-host")
      = some (webService source text) :=
  List.find?_cons_of_pos (show ("web" ++ "-" ++ "host" == "web-host") = true by decide)

theorem otherStatus_web {R : String → String → Prop} {S : String → Prop}
    (hS : ∀ s ∈ ["web", "host", "unknown", ""], S s) : OtherStatus R S webStatus webStatus where
  sockets := .nil
  process := .nil
  subprocess := .nil
  name := ⟨rfl, hS "web" (by decide)⟩
  type := ⟨rfl, hS "unknown" (by decide)⟩
  subType := ⟨rfl, hS "" (by decide)⟩
  uniqName := ⟨rfl, hS "host" (by decide)⟩
  host := ⟨rfl, hS "" (by decide)⟩

theorem otherEntry_web {R : String → String → Prop} {S : String → Prop} (hlevel : S "info")
    (hdate : R "now" "now") {t t' : String} (h : R t t') :
    OtherEntry R S (webEntry t) (webEntry t') where
  timestamp := rfl
  lineNo := rfl
  level := ⟨rfl, hlevel⟩
  dateMark := hdate
  text := by
    unfold webEntry
    rw [String.ofList_toList, String.ofList_toList]
    exact h

theorem otherwiseSame_web {R : String → String → Prop} {S : String → Prop}
    (hS : ∀ s ∈ ["web", "host", "unknown", ""], S s) (hid : S "web-host") (hlevel : S "info")
    {source : String} (hsource : S source) (hdate : R "now" "now") {t t' : String} (h : R t t') :
    OtherwiseSame R S idleHost idleHost (webAgent source t) (webAgent source t') "web-host"
      (webService source t) (webService source t') ((webService source t).toService, webStatus)
      ((webService source t').toService, webStatus) where
  found := find?_web source t
  found' := find?_web source t'
  answers := rfl
  answers' := rfl
  id := ⟨rfl, hid⟩
  status := otherStatus_web hS
  parsers := .cons ⟨⟨rfl, hsource⟩, .cons (otherEntry_web hlevel hdate h) .nil⟩ .nil
  collectors := rfl

/-- A line with a comparison. -/
theorem same_tags_comparison : ∃ s s' text text',
    doGetServiceHtml idleHost (fun _ => "") (webAgent "web.log" "load < 5") ["web-host"]
      = some (.ok (s, text)) ∧
    doGetServiceHtml idleHost (fun _ => "") (webAgent "web.log" "idle") ["web-host"]
      = some (.ok (s', text')) ∧ tags text = tags text' :=
  same_tags idleHost idleHost (fun _ => "") (webAgent "web.log" "load < 5")
    (webAgent "web.log" "idle") ["web-host"] _ _ _ _
    (otherwiseSame_web (by decide +kernel) (by decide +kernel) (by decide +kernel)
      (by decide +kernel) (.of_endsOutside (by decide +kernel))
      (alike_of_inert (by decide +kernel) (by decide +kernel)))

/-- The row of the entry, and the markup after it up to the collectors. -/
def webMarkup (source text : String) : String :=
  logRow (source, webEntry text)
    ++ "</tbody></table></div></div></div></div>\n<div class=\"row\">"

/-- It is read piece by piece. -/
theorem tags_webMarkup (source text : String) : tags (webMarkup source text)
    = (read .data ("<tr><td>".toList ++ "info".toList ++ "</td><td>".toList ++ "now".toList
        ++ "</td><td>".toList ++ source.toList ++ "</td><td>".toList ++ "1".toList
        ++ "</td><td>".toList ++ text.toList ++ "</td></tr>\n".toList
        ++ "</tbody></table></div></div></div></div>\n".toList
        ++ "<div class=\"row\">".toList)).2 := by
  have hone : toString 1 = "1" := rfl
  have hend : "</tbody></table></div></div></div></div>\n<div class=\"row\">"
      = "</tbody></table></div></div></div></div>\n" ++ "<div class=\"row\">" := rfl
  unfold tags webMarkup logRow webEntry
  dsimp only
  rw [String.ofList_toList, hone, hend]
  simp only [String.toList_append, List.append_assoc]

/-- What stands before it is closed. -/
theorem page_web : ∃ before after, Closed before ∧ ∀ source text,
    doGetServiceHtml idleHost (fun _ => "") (webAgent source text) ["web-host"]
      = some (.ok (webService source text, before ++ (webMarkup source text ++ after))) := by
  let columns := ["level", "date", "source", "line #", "text"]
  have htop : Closed (statusHtml "web-host" webStatus) :=
    (same_statusHtml ⟨rfl, by decide +kernel⟩ (otherStatus_web (by decide +kernel))).left
  have hbefore : Closed (statusHtml "web-host" webStatus ++ tableTop "Log entries" columns) :=
    htop.append (closed_tableTop (.of_chars rfl) closed_logColumns)
  refine ⟨_, "" ++ "</div>\n" ++ getFoot "", hbefore, fun source text => ?_⟩
  have hrun : doGetServiceHtml idleHost (fun _ => "") (webAgent source text) ["web-host"] = _ :=
    doGetServiceHtml_eq (r := ((webService source text).toService, webStatus))
      (find?_web source text) rfl
  have hend : "</tbody></table></div></div></div></div>\n<div class=\"row\">"
      = "</tbody></table></div></div>" ++ "</div></div>\n<div class=\"row\">" := rfl
  have hpage : page "web-host" webStatus
      (getJsonLogHistory "" (webService source text).parsers (.num (-1))) ""
        = statusHtml "web-host" webStatus ++ tableTop "Log entries" columns
          ++ (webMarkup source text ++ ("" ++ "</div>\n" ++ getFoot "")) := by
    unfold page pageTop webMarkup
    rw [entries_eq, hend]
    show _ ++ tableBox "Log entries" columns [logRow (source, webEntry text)] ++ _ ++ _ = _
    unfold tableBox
    show _ ++ (_ ++ ("" ++ _) ++ _) ++ _ ++ _ = _
    simp only [String.append_assoc, String.empty_append]
  rw [hrun, ← hpage]
  rfl

/-- Two texts for which the markup of the row differs at a tag. -/
theorem not_same_web {R : String → String → Prop} {S : String → Prop} {source t t' : String}
    (hsame : OtherwiseSame R S idleHost idleHost (webAgent source t) (webAgent source t')
      "web-host" (webService source t) (webService source t')
      ((webService source t).toService, webStatus) ((webService source t').toService, webStatus))
    (k : Nat) {tag tag' : Tag} (htag : (tags (webMarkup source t))[k]? = some tag)
    (htag' : (tags (webMarkup source t'))[k]? = some tag') (hne : tag ≠ tag') :
    ¬ ∀ (h h' : Host) (indexHtml : RoutedCollector → String) (a a' : Agent)
      (request : List String) (i i' : LoggedService) (r r' : Service × StatusDoc),
      OtherwiseSame R S h h' a a' (request[0]?.getD "") i i' r r' →
      ∃ s s' text text', doGetServiceHtml h indexHtml a request = some (.ok (s, text)) ∧
        doGetServiceHtml h' indexHtml a' request = some (.ok (s', text')) ∧
        tags text = tags text' := by
  intro hall
  obtain ⟨before, after, hbefore, hpage⟩ := page_web
  obtain ⟨s, s', text, text', heq, heq', htags⟩ :=
    hall idleHost idleHost (fun _ => "") (webAgent source t) (webAgent source t') ["web-host"]
      _ _ _ _ hsame
  rw [hpage] at heq heq'
  obtain ⟨-, rfl⟩ := Prod.mk.inj (Except.ok.inj (Option.some.inj heq))
  obtain ⟨-, rfl⟩ := Prod.mk.inj (Except.ok.inj (Option.some.inj heq'))
  rw [hbefore.tags_append, hbefore.tags_append, List.append_cancel_left_eq, tags_append,
    tags_append (webMarkup source t')] at htags
  have hget := congrArg (fun l => l[k]?) htags
  rw [List.getElem?_append_left (List.getElem?_eq_some_iff.mp htag).1,
    List.getElem?_append_left (List.getElem?_eq_some_iff.mp htag').1, htag, htag'] at hget
  exact hne (Option.some.inj hget)

/-- A line with a script in it adds a tag to the page. -/
theorem not_same_script : ¬ ∀ (h h' : Host) (indexHtml : RoutedCollector → String) (a a' : Agent)
    (request : List String) (i i' : LoggedService) (r r' : Service × StatusDoc),
    OtherwiseSame (fun _ _ => True) (fun _ => True) h h' a a' (request[0]?.getD "") i i' r r' →
    ∃ s s' text text', doGetServiceHtml h indexHtml a request = some (.ok (s, text)) ∧
      doGetServiceHtml h' indexHtml a' request = some (.ok (s', text')) ∧
      tags text = tags text' := by
  have hcell : (tags (webMarkup "web.log" ""))[10]?
      = some { closing := true, name := "td".toList } := by
    rw [tags_webMarkup]
    decide +kernel
  have hscript : (tags (webMarkup "web.log" "<script>"))[10]?
      = some { name := "script".toList } := by
    rw [tags_webMarkup]
    decide +kernel
  exact not_same_web (otherwiseSame_web (fun _ _ => trivial) trivial trivial trivial trivial trivial)
    10 hcell hscript (by decide)

/-- With a file name that ends inside of an attribute, two words are enough. -/
theorem not_same_source : ¬ ∀ (h h' : Host) (indexHtml : RoutedCollector → String) (a a' : Agent)
    (request : List String) (i i' : LoggedService) (r r' : Service × StatusDoc),
    OtherwiseSame Alike (fun _ => True) h h' a a' (request[0]?.getD "") i i' r r' →
    ∃ s s' text text', doGetServiceHtml h indexHtml a request = some (.ok (s, text)) ∧
      doGetServiceHtml h' indexHtml a' request = some (.ok (s', text')) ∧
      tags text = tags text' := by
  have hword : Alike "x" "y" := alike_of_inert (by decide) (by decide)
  have hnow : Alike "now" "now" := .of_endsOutside (by decide)
  -- The attribute goes on to the quote in the markup after the row.
  have hattribute : ∀ text ∈ ["x", "y"], (tags (webMarkup "<a title=\"" text))[6]? = some {
      name := "a".toList
      attributes := [("title".toList, "</td><td>".toList ++ "1".toList ++ "</td><td>".toList
        ++ text.toList ++ "</td></tr>\n".toList
        ++ "</tbody></table></div></div></div></div>\n".toList ++ "<div class=".toList),
        ("row\"".toList, [])] } := by
    simp only [tags_webMarkup]
    decide +kernel
  exact not_same_web (otherwiseSame_web (fun _ _ => trivial) trivial trivial trivial hnow hword) 6
    (hattribute "x" (by decide)) (hattribute "y" (by decide)) (by decide +kernel)

end WatchedAgent.Proofs.ServicePages
