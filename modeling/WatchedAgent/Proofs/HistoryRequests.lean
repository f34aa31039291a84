import WatchedAgent.Lib.Fallible
import WatchedAgent.Model.Requests
import WatchedAgent.Proofs.Histories

/-!
# `WatchedAgent.Proofs.HistoryRequests`: which history requests get an answer

`answered_iff` is for a request that a route of `doGetAllJson`, `doGetServiceLog` or
`Collector::doGetHistory` takes. It gets one complete response exactly when `Ready` holds of
the route: `stod` reads every value of `since` in the query, the collector of the route still
exists, no handler of a service throws, and the times of the samples are numbers.

The route takes every text in `[0-9.]*` after `since=`. `stod` reads it when it starts with a
number that is in range (`readsSince_iff`). `not_answered_empty` is the empty text. The times of
the samples are numbers in every run whose calls set no others (`comparable_run`).

`get_of_history` connects the answers with those of `Model.Routes`.
-/

set_option autoImplicit false

namespace WatchedAgent.Proofs.HistoryRequests

open WatchedAgent.Lib
open WatchedAgent.Lib.Fallible
open WatchedAgent.Lib.Strtod
open WatchedAgent.Model
open WatchedAgent.Model.Requests
open WatchedAgent.Model.Routes (Route RoutedCollector)
open WatchedAgent.Proofs.Histories (Stamped RessourceCall TimesAreNumbers run stamped_run)

/-! ### Complete responses -/

/-- A status line and header fields, the last of them the length of the content, and the
content. -/
def IsComplete (text : String) : Prop :=
  ∃ head content, text = head ++ "Content-Length: " ++ toString content.length ++ "\r\n\r\n"
      ++ content ∧ "HTTP/1.1 ".toList <+: head.toList ∧ Text.contains head "\r\n\r\n" = false

theorem isComplete_setResponseJson (content : String) : IsComplete (setResponseJson content) :=
  ⟨"HTTP/1.1 200 OK\r\nServer: watched.agent\r\nContent-Type:application/json\r\n"
    ++ "Access-Control-Allow-Origin:*\r\n", content, rfl, by decide, by decide⟩

theorem isComplete_setResponse404 (content : String) : IsComplete (setResponse404 content) :=
  ⟨"HTTP/1.1 404 Not found\r\nServer: watched.agent\r\n", content, rfl, by decide, by decide⟩

/-- A handler that writes complete responses gives one when it does not throw. -/
theorem of_response_iff {o : Option String} (h : ∀ text ∈ o, IsComplete text) :
    (∃ text, Outcome.of o = .response text ∧ IsComplete text) ↔ o.isSome = true := by
  cases o with
  | none =>
      refine iff_of_false ?_ Bool.false_ne_true
      rintro ⟨text, heq, -⟩
      cases heq
  | some text => exact iff_of_true ⟨text, rfl, h text rfl⟩ rfl

/-! ### The query -/

/-- `stod` reads every value of `since`. -/
def ReadsSince (args : List (String × String)) : Prop :=
  ∀ value, ("since", value) ∈ args → (stod value).isSome = true

theorem isSome_sinceOf {args : List (String × String)} :
    (sinceOf args).isSome = true ↔ ReadsSince args := by
  unfold sinceOf
  rw [isSome_foldlM (p := fun pair => pair.1 = "since" → (stod pair.2).isSome = true)]
  · constructor
    · exact fun h value hmem => h ("since", value) hmem rfl
    · rintro h ⟨key, value⟩ hmem rfl
      exact h value hmem
  · intro since pair
    by_cases hkey : pair.1 = "since"
    · rw [if_pos (beq_iff_eq.mpr hkey)]
      exact ⟨fun h _ => h, fun h => h hkey⟩
    · rw [if_neg (by simpa using hkey)]
      exact iff_of_true rfl fun h => absurd h hkey

/-- The order of the pairs does not matter, and the `unordered_multimap` of a request has none. -/
theorem readsSince_perm {args args' : List (String × String)} (h : args.Perm args') :
    ReadsSince args ↔ ReadsSince args' :=
  forall_congr' fun _ => imp_congr_left h.mem_iff

/-! ### Histories -/

theorem isSome_isReported {since : Double} {s : Sample} :
    (isReported since s).isSome = true ↔ Stamped s := by
  unfold isReported Stamped
  cases s.lookup "timestamp" with
  | none => exact iff_of_true rfl fun t h => nomatch h
  | some t =>
      dsimp only
      rw [Option.isSome_map]
      constructor
      · intro h u heq
        obtain rfl := Option.some.inj heq
        exact h
      · exact fun h => h t rfl

/-- The readers can compare the time of every sample they visit. -/
def Comparable (r : Ressource) : Prop := ∀ s ∈ r.visited, Stamped s

theorem isSome_getHistoryJson {since : Double} {r : Ressource} :
    (getHistoryJson since r).isSome = true ↔ Comparable r :=
  isSome_foldlM fun out s => by rw [Option.isSome_map, isSome_isReported]

theorem isSome_getHistoryText {render : Sample → String} {since : Double} {r : Ressource} :
    (getHistoryText render since r).isSome = true ↔ Comparable r := by
  unfold getHistoryText
  rw [Option.bind_eq_bind, Option.isSome_bind]
  show (Option.any (fun _ => true) _) = true ↔ _
  rw [Option.any_true]
  exact isSome_foldlM fun c s => by rw [Option.isSome_map, isSome_isReported]

/-- No reader throws on a ressource whose calls set no other times than numbers. A ressource too
long for the index of the readers is visited nowhere, so no bound on the calls is needed. -/
theorem comparable_run (typeName : String) {size : Nat} (hsize : 0 < size) {now : Int}
    {rest : List RessourceCall} (htimes : TimesAreNumbers (.nextValue now :: rest)) :
    Comparable (run typeName size (.nextValue now :: rest)) := by
  intro s hs
  unfold Ressource.visited at hs
  split at hs
  · exact stamped_run typeName hsize htimes s (List.mem_reverse.mp hs)
  · exact absurd hs List.not_mem_nil

/-- The histories of a collector can be read. -/
def Readable (a : Agent) (c : RoutedCollector) : Prop :=
  ∀ r ∈ c.ressources, Comparable (a.ressource c.obj r.1)

theorem isSome_getJsonHistory {a : Agent} {c : RoutedCollector} {since : Double} :
    (a.getJsonHistory c since).isSome = true ↔ Readable a c := by
  unfold Agent.getJsonHistory
  rw [isSome_mapM]
  exact forall₂_congr fun r _ => by rw [Option.isSome_map, isSome_getHistoryJson]

theorem isSome_getJsonCollectorHistory {a : Agent} {collectors : List (String × RoutedCollector)}
    {since : Double} {ref : List (String × CollectorDoc)} :
    (a.getJsonCollectorHistory collectors since ref).isSome = true
      ↔ ∀ e ∈ collectors, Readable a e.2 :=
  isSome_foldlM fun ref e => by rw [Option.isSome_map, isSome_getJsonHistory]

/-! ### The handlers -/

/-- The service answers: its handler does not throw where it is asked, and the histories of its
collectors can be read. -/
def ServiceReady (h : Host) (a : Agent) (i : LoggedService) : Prop :=
  (i.toService.askHandler h.env h.os).isSome = true ∧ ∀ e ∈ i.collectors, Readable a e.2

theorem isSome_getJsonStatus {env : Env} {os : OsState} {s : Service} :
    (s.getJsonStatus env os).isSome = (s.askHandler env os).isSome := by
  unfold Service.getJsonStatus
  cases s.askHandler env os <;> rfl

theorem isSome_serviceJson {h : Host} {a : Agent} {since : Double} {i : LoggedService}
    {res : List (String × ServiceDoc)} :
    (a.serviceJson h since i res).isSome = true ↔ ServiceReady h a i := by
  unfold Agent.serviceJson ServiceReady
  rw [← isSome_getJsonStatus]
  dsimp only
  cases i.toService.getJsonStatus h.env h.os with
  | none => exact iff_of_false Bool.false_ne_true fun hall => Bool.false_ne_true hall.1
  | some r =>
      rw [Option.bind_eq_bind, Option.bind_some, Option.bind_eq_bind, Option.isSome_bind]
      show (Option.any (fun _ => true) _) = true ↔ _
      rw [Option.any_true, isSome_getJsonCollectorHistory]
      exact (and_iff_right rfl).symm

theorem isSome_servicesJson {h : Host} {a : Agent} {since : Double} :
    (a.servicesJson h since).isSome = true ↔ ∀ i ∈ a.services, ServiceReady h a i :=
  isSome_foldlM fun c i => by rw [Option.isSome_map, isSome_serviceJson]

theorem isSome_doGetAllJson {h : Host} {a : Agent} {args : List (String × String)} :
    (a.doGetAllJson h args).isSome = true ↔ ReadsSince args ∧
      (∀ i ∈ a.services, ServiceReady h a i) ∧ ∀ e ∈ a.systemCollectors, Readable a e.2 := by
  unfold Agent.doGetAllJson
  rw [← isSome_sinceOf, Option.bind_eq_bind]
  cases sinceOf args with
  | none => exact iff_of_false Bool.false_ne_true fun hall => Bool.false_ne_true hall.1
  | some since =>
      rw [Option.bind_some, Option.bind_eq_bind]
      rw [← isSome_servicesJson]
      cases a.servicesJson h since with
      | none => exact iff_of_false Bool.false_ne_true fun hall => Bool.false_ne_true hall.2.1
      | some r =>
          -- The loop over the services leaves the collectors of the system as they are.
          rw [Option.bind_some]
          dsimp only
          rw [Option.bind_eq_bind, Option.isSome_bind]
          show (Option.any (fun _ => true) _) = true ↔ _
          rw [Option.any_true, isSome_getJsonCollectorHistory]
          exact ⟨fun hsystem => ⟨rfl, rfl, hsystem⟩, fun hall => hall.2.2⟩

theorem isSome_doGetServiceLog {h : Host} {a : Agent} {request : List String}
    {args : List (String × String)} :
    (a.doGetServiceLog h request args).isSome = true ↔ ReadsSince args := by
  unfold Agent.doGetServiceLog
  dsimp only
  rw [← isSome_sinceOf, Option.bind_eq_bind]
  cases sinceOf args with
  | none => exact Iff.rfl
  | some since =>
      -- The log entries have unsigned times, so that nothing else can throw.
      rw [Option.bind_some]
      refine iff_of_true ?_ rfl
      split
      · rfl
      · split <;> rfl

/-- If there is a ressource with that name, its history can be read. -/
def MetricReadable (a : Agent) (c : RoutedCollector) (name : String) : Prop :=
  (∃ r ∈ c.ressources, r.1 = name) → Comparable (a.ressource c.obj name)

theorem isSome_doGetHistory {h : Host} {a : Agent} {c : RoutedCollector} {request : List String}
    {args : List (String × String)} : (a.doGetHistory h c request args).isSome = true
      ↔ ReadsSince args ∧ MetricReadable a c (request[0]?.getD "") := by
  have hany : (c.ressources.any fun r => r.1 == request[0]?.getD "") = true
      ↔ ∃ r ∈ c.ressources, r.1 = request[0]?.getD "" := by simp
  unfold Agent.doGetHistory MetricReadable
  dsimp only
  rw [← isSome_sinceOf, Option.bind_eq_bind, ← hany]
  cases sinceOf args with
  | none => exact iff_of_false Bool.false_ne_true fun hall => Bool.false_ne_true hall.1
  | some since =>
      rw [Option.bind_some]
      split
      · rename_i hfound
        rw [Option.bind_eq_bind, Option.isSome_bind]
        show (Option.any (fun _ => true) _) = true ↔ _
        rw [Option.any_true, isSome_getHistoryText]
        exact ⟨fun hr => ⟨rfl, fun _ => hr⟩, fun hall => hall.2 hfound⟩
      · rename_i hmissing
        exact iff_of_true rfl ⟨rfl, fun hfound => absurd hfound hmissing⟩

/-! ### Every text that is written is complete -/

theorem isComplete_doGetAllJson {h : Host} {a : Agent} {args : List (String × String)}
    {text : String} (htext : (a.doGetAllJson h args).map Prod.snd = some text) :
    IsComplete text := by
  unfold Agent.doGetAllJson at htext
  obtain ⟨r, hr, rfl⟩ := Option.map_eq_some_iff.mp htext
  obtain ⟨since, -, hr⟩ := Option.bind_eq_some_iff.mp hr
  obtain ⟨c, -, hr⟩ := Option.bind_eq_some_iff.mp hr
  obtain ⟨system, -, hr⟩ := Option.bind_eq_some_iff.mp hr
  obtain rfl := Option.some.inj hr
  exact isComplete_setResponseJson _

theorem isComplete_doGetServiceLog {h : Host} {a : Agent} {request : List String}
    {args : List (String × String)} {text : String}
    (htext : a.doGetServiceLog h request args = some text) : IsComplete text := by
  unfold Agent.doGetServiceLog at htext
  obtain ⟨since, -, htext⟩ := Option.bind_eq_some_iff.mp htext
  split at htext
  · obtain rfl := Option.some.inj htext
    exact isComplete_setResponseJson _
  · split at htext
    · obtain rfl := Option.some.inj htext
      exact isComplete_setResponseJson _
    · obtain rfl := Option.some.inj htext
      exact isComplete_setResponseJson _

theorem isComplete_doGetHistory {h : Host} {a : Agent} {c : RoutedCollector}
    {request : List String} {args : List (String × String)} {text : String}
    (htext : a.doGetHistory h c request args = some text) : IsComplete text := by
  unfold Agent.doGetHistory at htext
  obtain ⟨since, -, htext⟩ := Option.bind_eq_some_iff.mp htext
  split at htext
  · obtain ⟨content, -, htext⟩ := Option.bind_eq_some_iff.mp htext
    obtain rfl := Option.some.inj htext
    exact isComplete_setResponseJson _
  · obtain rfl := Option.some.inj htext
    exact isComplete_setResponse404 _

theorem isComplete_doGetCollectorHistory {h : Host} {a : Agent} {request : List String}
    {args : List (String × String)} {text : String}
    (htext : a.doGetCollectorHistory h request args = some text) : IsComplete text := by
  unfold Agent.doGetCollectorHistory at htext
  dsimp only at htext
  split at htext
  · obtain rfl := Option.some.inj htext
    exact isComplete_setResponseJson _
  · split at htext
    · obtain rfl := Option.some.inj htext
      exact isComplete_setResponseJson _
    · exact isComplete_doGetHistory htext

/-! ### The routes -/

/-- The routes of `doGetAllJson`, `doGetServiceLog` and `Collector::doGetHistory`. -/
def IsHistory : Route → Prop
  | .doGetHistory _ => True
  | .doGetGraph _ => False
  | .doGetCollectorHistory => True
  | .manager name => name = "doGetAllJson" ∨ name = "doGetServiceLog"

/-- The condition for an answer of a route. `doGetCollectorHistory` reads `since` when it has
found the collector. -/
def Ready (h : Host) (a : Agent) (args : List (String × String)) (groups : List String) :
    Route → Prop
  | .doGetHistory obj => ReadsSince args ∧
      ∃ c, a.objects.find? (fun c => c.obj == obj) = some c ∧
        MetricReadable a c (groups[0]?.getD "")
  | .doGetGraph _ => False
  | .doGetCollectorHistory =>
      ∀ i, a.services.find? (fun i => i.getID == groups[0]?.getD "") = some i →
        ∀ c, i.collectors.lookup (groups[1]?.getD "") = some c →
          ReadsSince args ∧ MetricReadable a c (groups[2]?.getD "")
  | .manager name => ReadsSince args ∧ (name = "doGetAllJson" →
      (∀ i ∈ a.services, ServiceReady h a i) ∧ ∀ e ∈ a.systemCollectors, Readable a e.2)

/-- The request gets one complete response. -/
def Answered (h : Host) (a : Agent) (path : String) (args : List (String × String)) : Prop :=
  ∃ text, a.get h path args = .response text ∧ IsComplete text

/-- The empty text after the last group is what a missing group reads as. -/
theorem getElem?_request (groups : List String) (k : Nat) :
    (groups ++ [""])[k]?.getD "" = groups[k]?.getD "" := by
  by_cases hk : k < groups.length
  · rw [List.getElem?_append_left hk]
  · have hlength : groups.length ≤ k := Nat.le_of_not_lt hk
    rw [List.getElem?_append_right hlength, List.getElem?_eq_none hlength]
    cases hrest : k - groups.length <;> rfl

/-- The name of the metric, when the two groups before it are erased. -/
theorem getElem?_erased (groups : List String) :
    ((groups ++ [""]).drop 2)[0]?.getD "" = groups[2]?.getD "" := by
  rw [List.getElem?_drop, getElem?_request]

theorem isSome_doGetCollectorHistory {h : Host} {a : Agent} {groups : List String}
    {args : List (String × String)} :
    (a.doGetCollectorHistory h (groups ++ [""]) args).isSome = true
      ↔ Ready h a args groups .doGetCollectorHistory := by
  unfold Agent.doGetCollectorHistory Ready
  dsimp only
  rw [getElem?_request, getElem?_request]
  cases a.services.find? (fun i => i.getID == groups[0]?.getD "") with
  | none => exact iff_of_true rfl fun i hi => nomatch hi
  | some i =>
      dsimp only
      cases hc : i.collectors.lookup (groups[1]?.getD "") with
      | none =>
          refine iff_of_true rfl fun j hj c hc' => ?_
          obtain rfl := Option.some.inj hj
          exact absurd (hc.symm.trans hc') (by simp)
      | some c =>
          dsimp only
          rw [isSome_doGetHistory, getElem?_erased]
          constructor
          · intro hready j hj d hd
            obtain rfl := Option.some.inj hj
            obtain rfl := Option.some.inj (hc.symm.trans hd)
            exact hready
          · exact fun hready => hready i rfl c hc

/-- What a route of a history answers. -/
theorem respond_iff {h : Host} {a : Agent} {args : List (String × String)} {route : Route}
    {groups : List String} (hroute : IsHistory route) :
    (∃ text, a.respond h args route groups = .response text ∧ IsComplete text)
      ↔ Ready h a args groups route := by
  unfold Agent.respond
  cases route with
  | doGetHistory obj =>
      unfold Ready
      dsimp only
      cases hfind : a.objects.find? (fun c => c.obj == obj) with
      | none =>
          -- The route is still there, and its collector is gone.
          refine iff_of_false ?_ ?_
          · rintro ⟨text, heq, -⟩
            cases heq
          · rintro ⟨-, c, heq, -⟩
            cases heq
      | some c =>
          dsimp only
          rw [of_response_iff fun text htext => isComplete_doGetHistory htext,
            isSome_doGetHistory, getElem?_request]
          simp
  | doGetGraph obj => exact absurd hroute id
  | doGetCollectorHistory =>
      dsimp only
      rw [of_response_iff fun text htext => isComplete_doGetCollectorHistory htext,
        isSome_doGetCollectorHistory]
  | manager name =>
      unfold Ready
      dsimp only
      rcases hroute with rfl | rfl
      · rw [if_pos rfl, of_response_iff fun text htext => isComplete_doGetAllJson htext,
          Option.isSome_map, isSome_doGetAllJson]
        exact and_congr_right fun _ => ⟨fun hall _ => hall, fun hall => hall rfl⟩
      · rw [if_neg (by decide), if_pos rfl,
          of_response_iff fun text htext => isComplete_doGetServiceLog htext,
          isSome_doGetServiceLog]
        exact (and_iff_left fun hname => absurd hname (by decide)).symm

/-! ### The routes as `Model.Routes` has them -/

theorem objects_routes (a : Agent) : a.routes.objects = a.objects := by
  unfold Agent.routes Routes.State.objects Agent.objects
  rw [List.flatMap_map]

theorem find?_routes (a : Agent) (id : String) :
    a.routes.services.find? (fun i => i.getID == id)
      = (a.services.find? (fun i => i.getID == id)).map LoggedService.toHostService := by
  unfold Agent.routes
  rw [List.find?_map]
  rfl

/-- What `doGetHistory` writes about a ressource. -/
def historyText (h : Host) (r : Ressource) (args : List (String × String)) : Option String := do
  let since ← sinceOf args
  let content ← getHistoryText h.writer.sample since r
  return setResponseJson content

theorem doGetHistory_eq {h : Host} {a : Agent} {c : RoutedCollector} {request : List String}
    {args : List (String × String)} {query query' : Option String} {obj : Nat} {name : String}
    (hserved : c.doGetHistory (request[0]?.getD "") query = .history obj name query') :
    a.doGetHistory h c request args = historyText h (a.ressource obj name) args := by
  unfold RoutedCollector.doGetHistory at hserved
  unfold Agent.doGetHistory historyText
  split at hserved
  · rename_i hany
    obtain ⟨rfl, rfl, -⟩ := Routes.Response.history.inj hserved
    cases sinceOf args with
    | none => rfl
    | some since =>
        show (if _ then _ else _) = _
        rw [if_pos hany]
        rfl
  · cases hserved

theorem get_routes (a : Agent) (path : String) : a.routes.get path
    = match a.find_resource path with
      | none => .file
      | some (route, groups) => a.routes.respond (Routes.query path) route groups := rfl

theorem doGetCollectorHistory_eq {h : Host} {a : Agent} {groups : List String}
    {args : List (String × String)} {query query' : Option String} {obj : Nat} {name : String}
    (hserved : a.routes.doGetCollectorHistory (groups[0]?.getD "") (groups[1]?.getD "")
      (groups[2]?.getD "") query = .history obj name query') :
    a.doGetCollectorHistory h (groups ++ [""]) args = historyText h (a.ressource obj name) args := by
  unfold Routes.State.doGetCollectorHistory at hserved
  unfold Agent.doGetCollectorHistory
  dsimp only
  rw [find?_routes] at hserved
  rw [getElem?_request, getElem?_request]
  cases hserv : a.services.find? (fun i => i.getID == groups[0]?.getD "") with
  | none =>
      rw [hserv] at hserved
      cases hserved
  | some i =>
      rw [hserv] at hserved
      dsimp only [Option.map_some] at hserved ⊢
      cases hc : i.collectors.lookup (groups[1]?.getD "") with
      | none =>
          rw [hc] at hserved
          cases hserved
      | some c =>
          rw [hc] at hserved
          rw [← getElem?_erased] at hserved
          exact doGetHistory_eq hserved

/-- Where `Model.Routes` has the history of a ressource, the request gets the text of it. -/
theorem get_of_history {h : Host} {a : Agent} {path : String} {args : List (String × String)}
    {obj : Nat} {name : String} {query : Option String}
    (hserved : a.routes.get path = .history obj name query) :
    a.get h path args = .of (historyText h (a.ressource obj name) args) := by
  rw [get_routes] at hserved
  unfold Agent.get
  cases hfind : a.find_resource path with
  | none =>
      rw [hfind] at hserved
      cases hserved
  | some r =>
      obtain ⟨route, groups⟩ := r
      rw [hfind] at hserved
      dsimp only at hserved ⊢
      unfold Routes.State.respond at hserved
      unfold Agent.respond
      cases route with
      | doGetHistory obj' =>
          dsimp only at hserved ⊢
          rw [objects_routes] at hserved
          cases hobj : a.objects.find? (fun c => c.obj == obj') with
          | none =>
              rw [hobj] at hserved
              cases hserved
          | some c =>
              rw [hobj] at hserved
              rw [← getElem?_request] at hserved
              exact congrArg Outcome.of (doGetHistory_eq hserved)
      | doGetGraph obj' => cases hserved
      | doGetCollectorHistory => exact congrArg Outcome.of (doGetCollectorHistory_eq hserved)
      | manager name' => cases hserved

/-! ### One pair in the query -/

/-- Characters that neither end nor split a parameter leave the scan as it is. -/
theorem foldl_next {query_string : List Char} {cs : List Char} (h : ∀ c ∈ cs, c ≠ '&' ∧ c ≠ '=')
    (k : Nat) (s : QueryScan) : (cs.zipIdx k).foldl (QueryScan.next query_string) s = s := by
  induction cs generalizing k with
  | nil => rfl
  | cons c cs ih =>
      obtain ⟨hand, heq⟩ := h c List.mem_cons_self
      have hstep : s.next query_string (c, k) = s := by
        unfold QueryScan.next
        dsimp only
        rw [if_neg hand, if_neg heq]
      rw [List.zipIdx_cons, List.foldl_cons, hstep]
      exact ih (fun d hd => h d (List.mem_cons_of_mem c hd)) (k + 1)

/-- A key and its value. -/
theorem parse_query_string_pair {key value : List Char} (hkey : ∀ c ∈ key, c ≠ '&' ∧ c ≠ '=')
    (hvalue : ∀ c ∈ value, c ≠ '&' ∧ c ≠ '=') :
    parse_query_string (key ++ '=' :: value) = emplace key value [] := by
  -- The scan only marks the `=`, and the pair is stored after it.
  have hscan : ((key ++ '=' :: value).zipIdx).foldl (QueryScan.next (key ++ '=' :: value)) {}
      = { parameter_end_pos := some key.length, value_pos := some (key.length + 1) } := by
    rw [List.zipIdx_append, List.foldl_append, foldl_next hkey, List.zipIdx_cons, List.foldl_cons,
      foldl_next hvalue, Nat.zero_add]
    rfl
  have hdrop : (key ++ '=' :: value).drop (key.length + 1) = value := by
    rw [List.drop_append, Nat.add_sub_cancel_left, List.drop_eq_nil_of_le (by omega)]
    rfl
  unfold parse_query_string
  dsimp only
  rw [hscan]
  dsimp only
  rw [if_pos (by simp), hdrop, List.drop_zero, Nat.sub_zero, List.take_left]

/-- Nothing is encoded in a text without a `%` and a `+`. -/
theorem decode_of_plain {cs : List Char} (h : ∀ c ∈ cs, c ≠ '%' ∧ c ≠ '+') : decode cs = cs := by
  induction cs with
  | nil => rfl
  | cons c cs ih =>
      obtain ⟨hpercent, hplus⟩ := h c List.mem_cons_self
      have htail := ih fun d hd => h d (List.mem_cons_of_mem c hd)
      unfold decode
      split
      · rename_i heq
        exact absurd (List.cons.inj heq).1 hpercent
      · rename_i heq
        exact absurd (List.cons.inj heq).1 hplus
      · rename_i heq
        obtain ⟨rfl, rfl⟩ := List.cons.inj heq
        rw [htail]
      · rename_i heq
        exact absurd heq (List.cons_ne_nil _ _)

/-- The query of a path that ends with `?since=` and digits and points. -/
theorem queryArgs_since {stem t : String} (hstem : '?' ∉ stem.toList)
    (ht : IsDecimalText t.toList) : queryArgs (stem ++ "?since=" ++ t) = [("since", t)] := by
  have hsplit : (stem ++ "?since=" ++ t).toList
      = stem.toList ++ '?' :: ("since".toList ++ '=' :: t.toList) := by
    simp [String.toList_append]
  have hquery : Routes.query (stem ++ "?since=" ++ t)
      = some (String.ofList ("since".toList ++ '=' :: t.toList)) := by
    unfold Routes.query
    rw [Text.find_of_split hsplit hstem, Option.map_some, hsplit, List.drop_append,
      Nat.add_sub_cancel_left, List.drop_eq_nil_of_le (by omega)]
    rfl
  have hplain : ∀ c ∈ t.toList, c ≠ '&' ∧ c ≠ '=' := ht.all (by decide)
  unfold queryArgs
  rw [hquery, Option.map_some, Option.getD_some, String.toList_ofList,
    parse_query_string_pair (by decide) hplain]
  show [(String.ofList "since".toList, String.ofList (decode t.toList))] = _
  rw [decode_of_plain (ht.all (by decide)), String.ofList_toList, String.ofList_toList]

/-- Such a path is read when the text starts with a number that is in range. -/
theorem readsSince_iff {stem t : String} (hstem : '?' ∉ stem.toList)
    (ht : IsDecimalText t.toList) : ReadsSince (queryArgs (stem ++ "?since=" ++ t))
      ↔ Text.startsDecimal t.toList = true ∧ (toDouble (Text.decimalValue t.toList)).isSome := by
  have hreads : ReadsSince [("since", t)] ↔ (stod t).isSome = true := by
    unfold ReadsSince
    simp
  rw [queryArgs_since hstem ht, hreads, stod_of_decimal ht]
  cases Text.startsDecimal t.toList with
  | false => exact iff_of_false Bool.false_ne_true fun hall => Bool.false_ne_true hall.1
  | true =>
      rw [if_pos rfl, Option.isSome_map]
      exact (and_iff_right rfl).symm

/-! ### Every request -/

/-- A request that a history route takes gets one complete response exactly when the route is
ready. -/
theorem answered_iff (h : Host) (a : Agent) (path : String) (args : List (String × String))
    (hargs : args.Perm (queryArgs path)) (route : Route) (groups : List String)
    (hfind : a.find_resource path = some (route, groups)) (hroute : IsHistory route) :
    Answered h a path args ↔ Ready h a (queryArgs path) groups route := by
  have hready : Ready h a args groups route ↔ Ready h a (queryArgs path) groups route := by
    unfold Ready
    rw [readsSince_perm hargs]
  unfold Answered Agent.get
  rw [hfind, ← hready]
  exact respond_iff hroute

/-- An agent without services and collectors. -/
def emptyAgent : Agent := { resource := Routes.start.resource }

/-- A system where nothing runs. -/
def emptyHost : Host where
  env := {}
  os := {}
  now := 0
  writer := { stream := fun _ => "null", shortest := fun _ => "null", sample := fun _ => "null" }

theorem ready_zero : Ready emptyHost emptyAgent (queryArgs "/all?since=0") ["0"]
    (.manager "doGetAllJson") := by
  have hzero : Text.decimalValue "0".toList = 0 := by
    unfold Text.decimalValue
    rfl
  refine ⟨?_, fun _ => ⟨?_, ?_⟩⟩
  · have hstem : '?' ∉ "/all".toList := by decide
    have htext : IsDecimalText "0".toList := by
      unfold IsDecimalText
      decide
    refine (readsSince_iff hstem htext).mpr ⟨rfl, ?_⟩
    rw [hzero, toDouble_zero]
    rfl
  · exact fun i hi => absurd hi List.not_mem_nil
  · exact fun e he => absurd he List.not_mem_nil

/-- A request for everything. -/
theorem answered_zero : Answered emptyHost emptyAgent "/all?since=0" [("since", "0")] :=
  (answered_iff emptyHost emptyAgent "/all?since=0" [("since", "0")] (by decide)
    (.manager "doGetAllJson") ["0"] (by decide) (.inl rfl)).mpr ready_zero

/-- The route takes the empty text after `since=`, and `stod` throws. -/
theorem not_answered_empty : ¬ ∀ (h : Host) (a : Agent) (path : String)
    (args : List (String × String)), args.Perm (queryArgs path) →
    ∀ (route : Route) (groups : List String), a.find_resource path = some (route, groups) →
      IsHistory route → Answered h a path args := by
  intro hall
  have hquery : [("since", "")].Perm (queryArgs "/all?since=") := by decide
  have hfind : emptyAgent.find_resource "/all?since=" = some (.manager "doGetAllJson", [""]) := by
    decide
  obtain ⟨text, htext, -⟩ :=
    hall emptyHost emptyAgent "/all?since=" _ hquery _ _ hfind (.inl rfl)
  have hnothing : emptyAgent.get emptyHost "/all?since=" [("since", "")] = .nothing := by
    unfold Agent.get
    rw [hfind]
    rfl
  cases hnothing.symm.trans htext

end WatchedAgent.Proofs.HistoryRequests
