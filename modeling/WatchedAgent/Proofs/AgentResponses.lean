import WatchedAgent.Model.Requests
import WatchedAgent.Proofs.Connections

/-!
# `WatchedAgent.Proofs.AgentResponses`: the agent behind the server

The agent registers its routes for `GET`, and a handler for the files. So a connection of the
server answers with what `Agent.get` gives for a path and its query string.

* `find_resource_agent`: the look-up of the server is the one of the agent.
* `agent_responses`: the responses on a connection are those of the agent, one for each request.
-/

set_option autoImplicit false

namespace WatchedAgent.Proofs.AgentResponses

open WatchedAgent.Lib.Run (Meets exec)
open WatchedAgent.Model.Http
open WatchedAgent.Model.Requests
open WatchedAgent.Model (Routes.start)
open WatchedAgent.Model.Routes (Route)
open WatchedAgent.Proofs.Connections
open WatchedAgent.Proofs.RequestText

/-- The resources of the agent. `none` is the handler for the files. -/
def agentServer (order : MultimapOrder) (resource : List (String × Route)) :
    Server (Option Route) where
  resource := resource.map (fun e => (e.1, [("GET", some e.2)]))
  default_resource := [("GET", none)]
  order := order

/-- What the handlers write, at a step. `others` is for the files and for the handlers that
`Agent.respond` leaves out. -/
def answer (order : MultimapOrder) (host : Nat → Host) (agent : Nat → Agent)
    (others : Nat → Request → String) (now : Nat) (handler : Option Route) (request : Request)
    (groups : List String) : String :=
  match handler with
  | none => others now request
  | some route =>
      match (agent now).respond (host now) (order.arrange (queryArgs request.path)) route
          groups with
      | .response text => text
      | .nothing => ""
      | .undefined | .other => others now request

/-- The look-up of the server is the one of the agent. Only `GET` has handlers. -/
theorem find_resource_agent (order : MultimapOrder) (a : Agent) (request : Request) :
    find_resource (agentServer order a.resource) request
      = if request.method = "GET" then
          some (((a.find_resource request.path).map (fun r => (some r.1, r.2))).getD (none, []))
        else none := by
  unfold find_resource agentServer Agent.find_resource
  dsimp only
  by_cases hget : request.method = "GET"
  · rw [if_pos hget, hget]
    induction a.resource with
    | nil => rfl
    | cons e table ih =>
        rw [List.map_cons, List.findSome?_cons, List.findSome?_cons, List.lookup_cons_self,
          Option.bind_some]
        cases WatchedAgent.Lib.Regex.regexMatch e.1 request.path with
        | some groups => rfl
        | none => exact ih
  · have hnone : ∀ (η : Type) (handler : η), [("GET", handler)].lookup request.method = none := by
      intro η handler
      rw [WatchedAgent.Lib.Json.lookup_cons_of_ne _ _ hget]
      rfl
    rw [if_neg hget, hnone]
    induction a.resource with
    | nil => rfl
    | cons e table ih =>
        rw [List.map_cons, List.findSome?_cons, hnone]
        exact ih

/-- What is written for an outcome. `other` is for the files and the other handlers. -/
def Wrote (text other : String) : Outcome → Prop
  | .response text' => text = text'
  | .nothing => text = ""
  | .undefined | .other => text = other

/-- A handler of the agent writes what `Agent.get` gives for the path of a `GET`. -/
theorem wrote_answer {order : MultimapOrder} {host : Nat → Host} {agent : Nat → Agent}
    {others : Nat → Request → String}
    {now : Nat} {request : Request} {handler : Option Route} {groups : List String}
    (hfind : find_resource (agentServer order (agent now).resource) request
      = some (handler, groups)) :
    request.method = "GET" ∧ Wrote (answer order host agent others now handler request groups)
      (others now request)
        ((agent now).get (host now) request.path (order.arrange (queryArgs request.path))) := by
  rw [find_resource_agent] at hfind
  by_cases hget : request.method = "GET"
  · refine ⟨hget, ?_⟩
    rw [if_pos hget] at hfind
    unfold Agent.get
    cases hroute : (agent now).find_resource request.path with
    | none =>
        rw [hroute] at hfind
        obtain ⟨rfl, rfl⟩ := Prod.mk.inj (Option.some.inj hfind)
        exact rfl
    | some r =>
        obtain ⟨route, groups'⟩ := r
        rw [hroute] at hfind
        obtain ⟨rfl, rfl⟩ := Prod.mk.inj (Option.some.inj hfind)
        unfold answer
        dsimp only
        cases (agent now).respond (host now) (order.arrange (queryArgs request.path)) route
          groups' <;> exact rfl
  · rw [if_neg hget] at hfind
    exact absurd hfind (by simp)

theorem getElem?_of_take {α : Type*} {l : List α} {i k : Nat} {x : α}
    (h : (l.take k)[i]? = some x) : l[i]? = some x := by
  rw [List.getElem?_take] at h
  split at h
  · exact h
  · exact absurd h (by simp)

/-- For every client that waits for its responses, all pieces in which its requests come, and all
states that the agent takes meanwhile with the same routes: a request that is answered is a `GET`,
and the response is what the agent gives for its path and its query string at some step. A handler
that throws answers nothing. -/
theorem agent_responses (order : MultimapOrder) (host : Nat → Host) (agent : Nat → Agent)
    (others : Nat → Request → String) (resource : List (String × Route))
    (hresource : ∀ now, (agent now).resource = resource) (ms : List Message)
    (hms : ∀ m ∈ ms, Framed m) (events : List Model.Http.Event)
    (hclient : Meets (Connection.step (agentServer order resource)
      (answer order host agent others)) (Waits ms) {} events) :
    let s := exec (Connection.step (agentServer order resource) (answer order host agent others)) {}
      events
    ∀ (i : Nat) (response : String), s.responses[i]? = some response → ∃ m now, ms[i]? = some m ∧
      m.method = "GET" ∧
      match (agent now).get (host now) m.path (order.arrange (queryArgs m.path)) with
      | .response text => response = text
      | .nothing => response = ""
      | .undefined | .other => response = others now (m.request m.text) := by
  intro s i response hi
  have h := inv_exec hms events hclient
  -- The response is what was written for the handled request of that number.
  have hwritten : ∃ e, s.handled[i]? = some e ∧ e.2 = response := by
    rw [h.core.responses, List.getElem?_map, Option.map_eq_some_iff] at hi
    obtain ⟨e, he, hresponse⟩ := hi
    exact ⟨e, getElem?_of_take he, hresponse⟩
  obtain ⟨e, he, rfl⟩ := hwritten
  obtain ⟨m, hm, hrequest⟩ : ∃ m, ms[i]? = some m ∧ e.1 = m.request m.text := by
    have hfst : (s.handled.map Prod.fst)[i]? = some e.1 := by
      rw [List.getElem?_map, he]
      rfl
    rw [h.core.requests, List.getElem?_map, Option.map_eq_some_iff] at hfst
    obtain ⟨m, hm, heq⟩ := hfst
    exact ⟨m, getElem?_of_take hm, heq.symm⟩
  obtain ⟨now, handler, groups, hfind, htext⟩ := h.core.written e (List.mem_of_getElem? he)
  rw [← hresource now] at hfind
  obtain ⟨hget, hwrote⟩ := @wrote_answer order host agent others _ _ _ _ hfind
  rw [← htext, hrequest] at hwrote
  refine ⟨m, now, hm, by rw [← hget, hrequest]; rfl, ?_⟩
  change Wrote e.2 _ ((agent now).get (host now) m.path (order.arrange (queryArgs m.path)))
    at hwrote
  cases hout : (agent now).get (host now) m.path (order.arrange (queryArgs m.path)) with
  | _ =>
      rw [hout] at hwrote
      exact hwrote

/-- An agent without services and collectors, on a system where nothing runs. -/
def idleAgent : Agent := { resource := Routes.start.resource }

def idleHost : Host where
  env := {}
  os := {}
  now := 0
  writer := { stream := fun _ => "null", shortest := fun _ => "null", sample := fun _ => "null" }

theorem words_all : Words "GET" "/all" [] := ⟨by decide, by decide, by decide⟩

/-- A request for everything. -/
def allMessage : Message := .ofWords words_all []

theorem agent_responses_all :
    ∃ m, ∃ _ : Nat, [allMessage][0]? = some m ∧ m.method = "GET" ∧
      match idleAgent.get idleHost m.path (queryArgs m.path) with
      | .response text => setResponseJson "null" = text
      | .nothing => setResponseJson "null" = ""
      | .undefined | .other => setResponseJson "null" = "" :=
  agent_responses lineOrder (fun _ => idleHost) (fun _ => idleAgent) (fun _ _ => "")
    idleAgent.resource (fun _ => rfl) [allMessage] (by decide)
    [.arrive allMessage.text, .read 10, .read 100, .sent] (by decide) 0 (setResponseJson "null")
    (by decide)

end WatchedAgent.Proofs.AgentResponses
