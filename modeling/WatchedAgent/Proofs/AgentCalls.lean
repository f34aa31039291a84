import WatchedAgent.Proofs.AgentResponses
import WatchedAgent.Proofs.Exchanges

/-!
# `WatchedAgent.Proofs.AgentCalls`: a client that calls the agent

The client of `Proofs.Exchanges` calls the agent of `Proofs.AgentResponses`. The agent goes on
working, so each response is of the moment at which its request was handled.

* `moments_exec`: the moments of the requests ascend.
* `status_of_text`: a text is one response only.
* `agent_calls`: each result of the client has the status and the content that the agent gives for
  the path of the call, at its moment.
-/

set_option autoImplicit false

namespace WatchedAgent.Proofs.AgentCalls

open WatchedAgent.Lib.Run (exec exec_append)
open WatchedAgent.Model.Http
open WatchedAgent.Model.Requests
open WatchedAgent.Model.Routes (Route RoutedCollector)
open WatchedAgent.Proofs.AgentResponses
open WatchedAgent.Proofs.Exchanges
open WatchedAgent.Proofs.ResponseText

/-! ### Moments -/

section
variable {η : Type} {server : Server η} {write : Nat → η → Request → List String → String}

variable (server write) in
/-- A step handles no request, or one with what its handler writes at that step. -/
structure Next (s s' : Connection) : Prop where
  steps : s'.steps = s.steps
  handled : s'.handled = s.handled ∨ ∃ request handler groups,
    find_resource server request = some (handler, groups) ∧
      s'.handled = s.handled ++ [(request, write s.steps handler request groups)]

theorem Next.same {s s' : Connection} (hsteps : s'.steps = s.steps)
    (hhandled : s'.handled = s.handled) : Next server write s s' :=
  ⟨hsteps, .inl hhandled⟩

/-- The other fields do not matter. -/
theorem Next.of_same {t s s' : Connection} (h : Next server write t s')
    (hsteps : t.steps = s.steps) (hhandled : t.handled = s.handled) : Next server write s s' := by
  refine ⟨h.steps.trans hsteps, ?_⟩
  rw [← hsteps, ← hhandled]
  exact h.handled

theorem next_handle (s : Connection) : Next server write s (s.handle server write) := by
  unfold Connection.handle
  split
  · exact .same rfl rfl
  · rename_i handler groups hfind
    exact ⟨rfl, .inr ⟨_, handler, groups, hfind, rfl⟩⟩

theorem next_parsed (s : Connection) (bytes_transferred : Nat) :
    Next server write s (s.parsed server write bytes_transferred) := by
  unfold Connection.parsed
  dsimp only
  split
  · exact .same rfl rfl
  · exact .same rfl rfl
  · split
    · exact (next_handle _).of_same rfl rfl
    · split
      · exact .same rfl rfl
      · split
        · exact .same rfl rfl
        · exact (next_handle _).of_same rfl rfl

theorem next_read (s : Connection) (n : Nat) : Next server write s (s.read server write n) := by
  unfold Connection.read
  split
  · dsimp only
    split
    · exact .same rfl rfl
    · exact (next_parsed _ _).of_same rfl rfl
  · dsimp only
    split
    · exact .same rfl rfl
    · exact (next_handle _).of_same rfl rfl
  · exact .same rfl rfl

theorem next_sent (s : Connection) : Next server write s (s.sent server) := by
  unfold Connection.sent
  split
  · dsimp only
    split
    · exact .same rfl rfl
    · exact .same rfl rfl
  · exact .same rfl rfl

theorem next_step (s : Connection) (e : Event) :
    Next server write { s with steps := s.steps + 1 } (s.step server write e) := by
  cases e with
  | arrive bytes => exact .same rfl rfl
  | read n => exact next_read _ n
  | sent => exact next_sent _
  | lost =>
      unfold Connection.step
      dsimp only
      split
      · exact .same rfl rfl
      · exact .same rfl rfl

variable (server write) in
/-- The steps at which the requests were handled. -/
structure Moments (nows : List Nat) (s : Connection) : Prop where
  length : nows.length = s.handled.length
  ascending : nows.Pairwise (· < ·)
  past : ∀ now ∈ nows, now ≤ s.steps
  written : ∀ (i now : Nat) (e : Request × String), nows[i]? = some now →
    s.handled[i]? = some e → ∃ handler groups,
      find_resource server e.1 = some (handler, groups) ∧ e.2 = write now handler e.1 groups

theorem Moments.start : Moments server write [] {} where
  length := rfl
  ascending := .nil
  past := by simp
  written := by simp

/-- A request that is handled now comes behind the others. -/
theorem Moments.step {nows : List Nat} {s : Connection} (h : Moments server write nows s)
    (e : Event) : ∃ nows', Moments server write nows' (s.step server write e) := by
  obtain ⟨hsteps, hhandled⟩ := @next_step _ server write s e
  have hsteps : (s.step server write e).steps = s.steps + 1 := hsteps
  rcases hhandled with hsame | ⟨request, handler, groups, hfind, hmore⟩
  · have hsame : (s.step server write e).handled = s.handled := hsame
    refine ⟨nows, ?_, h.ascending, fun now hnow => ?_, ?_⟩
    · rw [hsame]
      exact h.length
    · have hpast := h.past now hnow
      omega
    · rw [hsame]
      exact h.written
  · have hmore : (s.step server write e).handled
        = s.handled ++ [(request, write (s.steps + 1) handler request groups)] := hmore
    refine ⟨nows ++ [s.steps + 1], ?_, ?_, ?_, ?_⟩
    · simp [hmore, h.length]
    · refine List.pairwise_append.mpr ⟨h.ascending, List.pairwise_singleton _ _, ?_⟩
      intro now hnow next hnext
      have hpast := h.past now hnow
      have hnext := List.mem_singleton.mp hnext
      omega
    · intro now hnow
      rcases List.mem_append.mp hnow with hnow | hnow
      · have hpast := h.past now hnow
        omega
      · have hnow := List.mem_singleton.mp hnow
        omega
    · intro i now request' hnow hrequest
      rw [hmore] at hrequest
      by_cases hi : i < s.handled.length
      · rw [List.getElem?_append_left (h.length ▸ hi)] at hnow
        rw [List.getElem?_append_left hi] at hrequest
        exact h.written i now request' hnow hrequest
      · -- The last one is the new one.
        have hlast : i = s.handled.length := by
          have hlt := (List.getElem?_eq_some_iff.mp hrequest).1
          rw [List.length_append, List.length_singleton] at hlt
          omega
        subst hlast
        rw [List.getElem?_concat_length] at hrequest
        rw [← h.length, List.getElem?_concat_length] at hnow
        obtain rfl := Option.some.inj hrequest
        obtain rfl := Option.some.inj hnow
        exact ⟨handler, groups, hfind, rfl⟩

/-- The server takes a step of its own, or none. -/
theorem server_step (host : String) (program : List Call) (w : Exchange) (e : Exchange.Event) :
    (w.step server write host program e).server = w.server ∨
      ∃ e', (w.step server write host program e).server = w.server.step server write e' := by
  cases e with
  | toServer n => exact .inr ⟨.arrive ((w.client.sent.drop w.server.stream.length).take n), rfl⟩
  | server n => exact .inr ⟨.read n, rfl⟩
  | sent => exact .inr ⟨.sent, rfl⟩
  | lost => exact .inr ⟨.lost, rfl⟩
  | _ => exact .inl rfl

theorem moments_exec (host : String) (program : List Call) (events : List Exchange.Event) :
    let w := exec (Exchange.step server write host program) {} events
    w.server.steps ≤ events.length ∧ ∃ nows, Moments server write nows w.server := by
  intro w
  induction events using List.reverseRecOn with
  | nil => exact ⟨Nat.le_refl 0, [], .start⟩
  | append_singleton events e ih =>
      obtain ⟨hsteps, nows, hnows⟩ := ih
      have hlast : w = (exec (Exchange.step server write host program) {} events).step
          server write host program e := exec_append _ _ events [e]
      rw [List.length_append, List.length_singleton, hlast]
      rcases server_step host program
          (exec (Exchange.step server write host program) {} events) e with hsame | ⟨e', hstep⟩
      · rw [hsame]
        exact ⟨Nat.le_succ_of_le hsteps, nows, hnows⟩
      · rw [hstep]
        refine ⟨?_, hnows.step e'⟩
        rw [(next_step _ e').steps]
        exact Nat.succ_le_succ hsteps

end

/-! ### Responses -/

/-- A text is one response only. -/
theorem status_of_text {r r' : Reply} (h : r.text = r'.text) :
    r.status = r'.status ∧ r.head.length = r'.head.length := by
  have hn : r.fields.length < max r.fields.length r'.fields.length + 1 := by omega
  have hn' : r'.fields.length < max r.fields.length r'.fields.length + 1 := by omega
  have hparse := parse_reply r r.content hn
  have hparse' := parse_reply r' r'.content hn'
  have htext : r.head ++ r.content = r'.head ++ r'.content := h
  rw [htext, hparse'] at hparse
  have hresponse := Option.some.inj hparse
  refine ⟨(congrArg Response.status_code hresponse).symm, ?_⟩
  exact (congrArg (fun response => response.content.pos) hresponse).symm

/-- A response of the handlers, with its status and its content. -/
def Shows (text status content : String) : Prop :=
  (text = setResponseJson content ∧ status = "200 OK") ∨
    (text = setResponse404 content ∧ status = "404 Not found")

theorem exists_reply_of_shows {text status content : String} (h : Shows text status content) :
    ∃ r : Reply, r.text = text.toList ∧ r.status = status ∧ r.content = content.toList := by
  rcases h with ⟨rfl, rfl⟩ | ⟨rfl, rfl⟩
  · obtain ⟨r, htext, hstatus, -, hcontent⟩ := says_json content
    exact ⟨r, htext, hstatus, hcontent⟩
  · obtain ⟨r, htext, hstatus, -, hcontent⟩ := says_404 content
    exact ⟨r, htext, hstatus, hcontent⟩

/-- Nothing is no response. -/
theorem text_ne_nil (r : Reply) : r.text ≠ [] := by
  simp [Reply.text, Reply.head]

/-- What the client gets of it. -/
theorem string_of_shows {text status content : String} {result : Response}
    (h : Shows text status content) (hresult : Answered text result) :
    result.status_code = status ∧ result.string = content.toList := by
  obtain ⟨r, htext, rfl, hcontent⟩ := exists_reply_of_shows h
  obtain ⟨r', -, htext', rfl⟩ := hresult
  obtain ⟨hstatus, hhead⟩ := status_of_text (htext'.trans htext.symm)
  refine ⟨hstatus, ?_⟩
  show r'.text.drop r'.head.length = content.toList
  rw [hhead, htext', ← htext, ← hcontent]
  exact List.drop_left

theorem answers_of_shows {text status content : String} (h : Shows text status content)
    (hsize : text.length < 0x10000000000000000) : Answers text := by
  have hle : ∀ head : String, content.length ≤ (head ++ content).length := by
    intro head
    rw [String.length_append]
    omega
  rcases h with ⟨rfl, -⟩ | ⟨rfl, -⟩
  · unfold setResponseJson at hsize ⊢
    obtain ⟨r, hframed, htext, -⟩ := writes_json ((hle _).trans_lt hsize)
    exact .inr ⟨r, hframed, htext⟩
  · unfold setResponse404 at hsize ⊢
    obtain ⟨r, hframed, htext, -⟩ := writes_404 ((hle _).trans_lt hsize)
    exact .inr ⟨r, hframed, htext⟩

/-! ### The agent -/

section
variable {h : Host} {a : Agent} {request : List String} {args : List (String × String)}
  {text : String}

theorem shows_setResponseJson (content : String) :
    ∃ status content', Shows (setResponseJson content) status content' :=
  ⟨"200 OK", content, .inl ⟨rfl, rfl⟩⟩

theorem shows_doGetHistory {c : RoutedCollector} (htext : a.doGetHistory h c request args = some text) :
    ∃ status content, Shows text status content := by
  unfold Agent.doGetHistory at htext
  obtain ⟨since, -, htext⟩ := Option.bind_eq_some_iff.mp htext
  split at htext
  · obtain ⟨content, -, htext⟩ := Option.bind_eq_some_iff.mp htext
    obtain rfl := Option.some.inj htext
    exact shows_setResponseJson content
  · obtain rfl := Option.some.inj htext
    exact ⟨"404 Not found", "No such Metric", .inr ⟨rfl, rfl⟩⟩

theorem shows_doGetCollectorHistory (htext : a.doGetCollectorHistory h request args = some text) :
    ∃ status content, Shows text status content := by
  unfold Agent.doGetCollectorHistory at htext
  dsimp only at htext
  split at htext
  · obtain rfl := Option.some.inj htext
    exact shows_setResponseJson _
  · split at htext
    · obtain rfl := Option.some.inj htext
      exact shows_setResponseJson _
    · exact shows_doGetHistory htext

theorem shows_doGetServiceLog (htext : a.doGetServiceLog h request args = some text) :
    ∃ status content, Shows text status content := by
  unfold Agent.doGetServiceLog at htext
  obtain ⟨since, -, htext⟩ := Option.bind_eq_some_iff.mp htext
  split at htext
  · obtain rfl := Option.some.inj htext
    exact shows_setResponseJson _
  · split at htext
    · obtain rfl := Option.some.inj htext
      exact shows_setResponseJson _
    · obtain rfl := Option.some.inj htext
      exact shows_setResponseJson _

theorem shows_doGetAllJson (htext : (a.doGetAllJson h args).map Prod.snd = some text) :
    ∃ status content, Shows text status content := by
  unfold Agent.doGetAllJson at htext
  obtain ⟨r, hr, rfl⟩ := Option.map_eq_some_iff.mp htext
  obtain ⟨since, -, hr⟩ := Option.bind_eq_some_iff.mp hr
  obtain ⟨c, -, hr⟩ := Option.bind_eq_some_iff.mp hr
  obtain ⟨system, -, hr⟩ := Option.bind_eq_some_iff.mp hr
  obtain rfl := Option.some.inj hr
  exact shows_setResponseJson _

/-- A handler that writes something writes one of the two responses. -/
theorem shows_respond {route : Route} {groups : List String}
    (htext : a.respond h args route groups = .response text) :
    ∃ status content, Shows text status content := by
  have hof : ∀ {o : Option String}, Outcome.of o = .response text → o = some text := by
    intro o ho
    cases o with
    | none => exact absurd ho Outcome.noConfusion
    | some text' => exact congrArg some (Outcome.response.inj ho)
  unfold Agent.respond at htext
  cases route with
  | doGetHistory obj =>
      dsimp only at htext
      split at htext
      · exact absurd htext Outcome.noConfusion
      · exact shows_doGetHistory (hof htext)
  | doGetGraph obj => exact absurd htext Outcome.noConfusion
  | doGetCollectorHistory => exact shows_doGetCollectorHistory (hof htext)
  | manager name =>
      dsimp only at htext
      split at htext
      · exact shows_doGetAllJson (hof htext)
      · split at htext
        · exact shows_doGetServiceLog (hof htext)
        · exact absurd htext Outcome.noConfusion

theorem shows_get {path : String} (htext : a.get h path args = .response text) :
    ∃ status content, Shows text status content := by
  unfold Agent.get at htext
  split at htext
  · exact absurd htext Outcome.noConfusion
  · exact shows_respond htext

end

/-- What the client has of an outcome: the status and the content of the response. A handler that
throws gives no result. -/
def Reports (result : Response) (other : String) : Outcome → Prop
  | .response text => ∃ status content, Shows text status content ∧
      result.status_code = status ∧ result.string = content.toList
  | .nothing => False
  | .undefined | .other => Answered other result

/-- The outcome leaves the client without a response. -/
def Silent (other : String) : Outcome → Prop
  | .response _ => False
  | .nothing => True
  | .undefined | .other => other = ""

/-- The responses of an outcome say their status and their content. -/
def Readable (outcome : Outcome) : Prop :=
  ∀ text, outcome = .response text → ∃ status content, Shows text status content

theorem reports_of_wrote {text other : String} {outcome : Outcome} (hreadable : Readable outcome)
    (h : Wrote text other outcome) {result : Response} (hresult : Answered text result) :
    Reports result other outcome := by
  cases outcome with
  | response text' =>
      obtain rfl : text = text' := h
      obtain ⟨status, content, hshows⟩ := hreadable text rfl
      exact ⟨status, content, hshows, string_of_shows hshows hresult⟩
  | nothing =>
      obtain rfl : text = "" := h
      obtain ⟨r, -, htext, -⟩ := hresult
      exact text_ne_nil r htext
  | _ =>
      obtain rfl : text = other := h
      exact hresult

theorem silent_of_wrote {other : String} {outcome : Outcome} (hreadable : Readable outcome)
    (h : Wrote "" other outcome) : Silent other outcome := by
  cases outcome with
  | response text' =>
      obtain ⟨status, content, hshows⟩ := hreadable text' rfl
      obtain rfl : "" = text' := h
      obtain ⟨r, htext, -⟩ := exists_reply_of_shows hshows
      exact text_ne_nil r htext
  | nothing => trivial
  | _ => exact h.symm

section
variable {order : MultimapOrder} {host : Nat → Host} {agent : Nat → Agent}
  {others : Nat → Request → String}

/-- Every text that the agent writes says how long it is. -/
theorem answersAll_answer {name : String} {program : List Call}
    (hsize : ∀ now args route groups text,
      (agent now).respond (host now) args route groups = .response text →
        text.length < 0x10000000000000000)
    (hothers : ∀ now request, Answers (others now request)) :
    AnswersAll (answer order host agent others) name program := by
  intro call _ now handler request groups _
  unfold answer
  cases handler with
  | none => exact hothers now request
  | some route =>
      dsimp only
      cases hrespond : (agent now).respond (host now) (order.arrange (queryArgs request.path))
          route groups with
      | response text =>
          obtain ⟨status, content, hshows⟩ := shows_respond hrespond
          exact answers_of_shows hshows (hsize _ _ _ _ _ hrespond)
      | nothing => exact .inl rfl
      | _ => exact hothers now request

end

/-- For every program of calls, all states that the agent takes meanwhile with the same routes, and
every order of the events of both ends: there are ascending moments, one for each request that was
handled, and each result of the client has the status and the content that the agent gives for the
path of the call, at the moment of its request. When all bytes were read, a call waits only for a
handler that has written nothing. -/
theorem agent_calls (order : MultimapOrder) (host : Nat → Host) (agent : Nat → Agent)
    (others : Nat → Request → String) (resource : List (String × Route))
    (hresource : ∀ now, (agent now).resource = resource)
    (hsize : ∀ now args route groups text,
      (agent now).respond (host now) args route groups = .response text →
        text.length < 0x10000000000000000)
    (hothers : ∀ now request, Answers (others now request)) (name : String) (program : List Call)
    (hprogram : ∀ call ∈ program, Fits name call) (events : List Exchange.Event) :
    let w := exec (Exchange.step (agentServer order resource) (answer order host agent others)
      name program) {} events
    ∃ nows : List Nat, nows.Pairwise (· < ·) ∧ (∀ now ∈ nows, now ≤ events.length) ∧
      (∀ (i : Nat) (result : Response), w.client.results[i]? = some result →
        ∃ call request now, program[i]? = some call ∧ Received name call request ∧
          nows[i]? = some now ∧ call.method = "GET" ∧ Reports result (others now request)
            ((agent now).get (host now) (corrected call.path)
              (order.arrange (queryArgs (corrected call.path))))) ∧
      (w.server.phase ≠ .closed → w.client.phase ≠ .closed → w.server.stream = w.client.sent →
        w.server.pos = w.server.stream.length → w.client.stream = Exchange.written w.server →
          w.client.pos = w.client.stream.length → w.client.results.length = w.client.calls ∨
            ∃ call request now, program[w.client.results.length]? = some call ∧
              Received name call request ∧ Silent (others now request)
                ((agent now).get (host now) (corrected call.path)
                  (order.arrange (queryArgs (corrected call.path))))) := by
  intro w
  have hwrite : AnswersAll (answer order host agent others) name program :=
    answersAll_answer hsize hothers
  have h : ExchangeInv (agentServer order resource) (answer order host agent others) hprogram
      (Exchange.Event.lost ∈ events) w := .exec hwrite events
  obtain ⟨hsteps, nows, hnows⟩ :=
    @moments_exec _ (agentServer order resource) (answer order host agent others) name program
      events
  -- What was written for a request that was handled.
  have hhandled : ∀ (i : Nat) (e : Request × String), w.server.handled[i]? = some e →
      ∃ call now, program[i]? = some call ∧ Received name call e.1 ∧ nows[i]? = some now ∧
        call.method = "GET" ∧ Wrote e.2 (others now e.1)
          ((agent now).get (host now) (corrected call.path)
            (order.arrange (queryArgs (corrected call.path)))) := by
    intro i e he
    obtain ⟨call, hcall, hreceived⟩ := h.received he
    have hi : i < nows.length := hnows.length ▸ (List.getElem?_eq_some_iff.mp he).1
    have hnow : nows[i]? = some nows[i] := List.getElem?_eq_getElem hi
    obtain ⟨handler, groups, hfind, htext⟩ := hnows.written i nows[i] e hnow he
    rw [← hresource nows[i]] at hfind
    obtain ⟨hget, hwrote⟩ := @wrote_answer order host agent others _ _ _ _ hfind
    rw [← htext, hreceived.path] at hwrote
    exact ⟨call, nows[i], hcall, hreceived, hnow, hreceived.method ▸ hget, hwrote⟩
  refine ⟨nows, hnows.ascending, fun now hnow => (hnows.past now hnow).trans hsteps, ?_, ?_⟩
  · intro i result hresult
    obtain ⟨e, he, hanswered⟩ := h.client.core.results i result hresult
    obtain ⟨call, now, hcall, hreceived, hnow, hget, hwrote⟩ := hhandled i e he
    exact ⟨call, e.1, now, hcall, hreceived, hnow, hget,
      reports_of_wrote (fun _ => shows_get) hwrote hanswered⟩
  · intro hserver hclient hsent hread hwritten hpos
    refine (h.complete hwrite hserver hclient hsent hread hwritten hpos).imp_right ?_
    rintro ⟨e, he, hempty⟩
    obtain ⟨call, now, hcall, hreceived, -, -, hwrote⟩ := hhandled _ e he
    rw [hempty] at hwrote
    exact ⟨call, e.1, now, hcall, hreceived, silent_of_wrote (fun _ => shows_get) hwrote⟩

/-- Without services all documents are those of the writer. -/
theorem respond_idle {args : List (String × String)} {route : Route} {groups : List String}
    {text : String} (h : idleAgent.respond idleHost args route groups = .response text) :
    text = setResponseJson "null" := by
  cases route with
  | doGetHistory obj => exact absurd h Outcome.noConfusion
  | doGetGraph obj => exact absurd h Outcome.noConfusion
  | doGetCollectorHistory => exact (Outcome.response.inj h).symm
  | manager name =>
      unfold Agent.respond at h
      dsimp only at h
      cases hsince : sinceOf args with
      | none =>
          split at h
          · rw [Agent.doGetAllJson, hsince] at h
            exact absurd h Outcome.noConfusion
          · split at h
            · rw [Agent.doGetServiceLog, hsince] at h
              exact absurd h Outcome.noConfusion
            · exact absurd h Outcome.noConfusion
      | some since =>
          split at h
          · rw [Agent.doGetAllJson, hsince] at h
            exact (Outcome.response.inj h).symm
          · split at h
            · rw [Agent.doGetServiceLog, hsince, Option.bind_eq_bind, Option.bind_some] at h
              dsimp only at h
              split at h
              · exact (Outcome.response.inj h).symm
              · exact (Outcome.response.inj h).symm
            · exact absurd h Outcome.noConfusion

/-- A call for everything. -/
def allCall : Call := { method := "GET", path := "/all" }

/-- The request and the response are both read in two pieces. -/
def allEvents : List Exchange.Event :=
  [.request, .toServer 20, .server 100, .toServer 100, .server 100, .toClient 60, .client 59,
    .toClient 200, .client 200]

theorem fits_allCall : ∀ call ∈ [allCall], Fits "h" call := by
  intro call hcall
  rw [List.mem_singleton.mp hcall]
  exact ⟨by decide, by decide, by decide, by decide, by decide, by decide⟩

def allExchange : Exchange :=
  exec (Exchange.step (agentServer lineOrder idleAgent.resource)
    (answer lineOrder (fun _ => idleHost) (fun _ => idleAgent) (fun _ _ => "")) "h" [allCall]) {}
      allEvents

theorem agent_calls_all :
    allExchange.client.results.length = 1 ∧ ∀ result, allExchange.client.results[0]? = some result →
      ∃ call request, [allCall][0]? = some call ∧ Received "h" call request ∧
        call.method = "GET" ∧ Reports result "" (idleAgent.get idleHost (corrected call.path)
          (queryArgs (corrected call.path))) := by
  obtain ⟨nows, -, -, hresults, -⟩ := agent_calls lineOrder (fun _ => idleHost) (fun _ => idleAgent)
    (fun _ _ => "") idleAgent.resource (fun _ => rfl)
    (fun _ _ _ _ text h => by
      rw [respond_idle h]
      decide +kernel)
    (fun _ _ => .inl rfl) "h" [allCall] fits_allCall allEvents
  refine ⟨by decide +kernel, fun result hresult => ?_⟩
  obtain ⟨call, request, now, hcall, hreceived, -, hget, hreports⟩ := hresults 0 result hresult
  exact ⟨call, request, hcall, hreceived, hget, hreports⟩

end WatchedAgent.Proofs.AgentCalls
