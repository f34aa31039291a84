import WatchedAgent.Proofs.Connections
import WatchedAgent.Proofs.ResponseText

/-!
# `WatchedAgent.Proofs.Exchanges`: a client and a server

Both ends of a connection, with the bytes that are under way in each direction. Nothing is assumed
about the order of the events: the client may read before the server knows that a response was
sent, and a header comes in any pieces.

* `calls_answered`: each result of the client is what the handler wrote for that call, which the
  server got as it was made.
-/

set_option autoImplicit false

namespace WatchedAgent.Proofs.Exchanges

open WatchedAgent.Lib
open WatchedAgent.Lib.Delimited
open WatchedAgent.Lib.Run (exec)
open WatchedAgent.Lib.Text
open WatchedAgent.Model.Http
open WatchedAgent.Proofs.Connections
open WatchedAgent.Proofs.RequestText
open WatchedAgent.Proofs.ResponseText

/-! ### Calls -/

/-- A call that the server can read. The client writes the length itself. -/
structure Fits (host : String) (call : Call) : Prop where
  method : ∀ c ∈ call.method.toList, c ≠ ' ' ∧ c ≠ '\n'
  path : ∀ c ∈ call.path.toList, c ≠ ' ' ∧ c ≠ '\n'
  host : '\n' ∉ host.toList
  header : ∀ f ∈ call.header, ':' ∉ f.1.toList ∧ '\n' ∉ f.1.toList ∧ '\n' ∉ f.2.toList
  length : findField call.header "Content-Length" = none
  size : call.content.length < 0x10000000000000000

/-- The path that is written. -/
def corrected (path : String) : String := if path = "" then "/" else path

/-- The field with the length, unless the content is empty. -/
def lengthFields (call : Call) : List (String × String) :=
  if 0 < call.content.length then [("Content-Length", toString call.content.length)] else []

/-- The fields that are written. -/
def fields (host : String) (call : Call) : List (String × String) :=
  ("Host", host) :: (call.header ++ lengthFields call)

/-- The request has what the call was made with. -/
structure Received (host : String) (call : Call) (request : Request) : Prop where
  method : request.method = call.method
  path : request.path = corrected call.path
  header : request.header = fields host call
  content : request.content.content.drop request.content.pos = call.content

theorem words_call {host : String} {call : Call} (h : Fits host call) :
    Words call.method (corrected call.path) (fields host call) where
  method := h.method
  path := by
    unfold corrected
    split
    · decide
    · exact h.path
  fields := by
    intro f hf
    rcases List.mem_cons.mp hf with rfl | hf
    · exact ⟨show _ ∉ "Host".toList by decide, show _ ∉ "Host".toList by decide, h.host⟩
    · rcases List.mem_append.mp hf with hf | hf
      · exact h.header f hf
      · unfold lengthFields at hf
        split at hf
        · rw [List.mem_singleton.mp hf]
          exact ⟨length_line.1, length_line.2, newline_not_mem_toString _⟩
        · exact absurd hf List.not_mem_nil

/-- The call as the server has it. -/
def message {host : String} {call : Call} (h : Fits host call) : Message :=
  .ofWords (words_call h) call.content

/-- It is what the client writes. -/
theorem text_message {host : String} {call : Call} (h : Fits host call) :
    (message h).text = call.text host := by
  have hfields : linesText ((fields host call).map Message.fieldLine)
      = "Host: ".toList ++ host.toList ++ "\r\n".toList
        ++ call.header.flatMap (fun f => f.1.toList ++ ": ".toList ++ f.2.toList ++ "\r\n".toList)
        ++ (if 0 < call.content.length then
          "Content-Length: ".toList ++ (toString call.content.length).toList ++ "\r\n".toList
          else []) := by
    unfold fields lengthFields linesText
    split <;> simp [Message.fieldLine, List.flatMap_map]
  show linesText ((message h).firstLine :: (fields host call).map Message.fieldLine)
    ++ ['\r', '\n'] ++ call.content = _
  rw [linesText, List.flatMap_cons]
  show _ ++ linesText ((fields host call).map Message.fieldLine) ++ _ ++ _ = _
  rw [hfields]
  simp [message, Message.ofWords, Message.firstLine, Call.text, create_request_header, corrected]

theorem received_message {host : String} {call : Call} (h : Fits host call) :
    Received host call ((message h).request (message h).text) where
  method := rfl
  path := rfl
  header := rfl
  content := List.drop_left

/-- The one field for the length is that which the client has written. -/
theorem framed_message {host : String} {call : Call} (h : Fits host call) :
    Framed (message h) := by
  have hsame : case_insensitive_equal "Content-Length" "Content-Length" = true := by decide
  have hhost : case_insensitive_equal "Host" "Content-Length" = false := by decide
  refine ⟨fun it hit hname => ?_, fun hnone => ?_⟩
  · rcases List.mem_cons.mp hit with rfl | hit
    · exact absurd (hhost.symm.trans hname) (by simp)
    · rcases List.mem_append.mp hit with hit | hit
      · exact absurd hname (List.find?_eq_none.mp h.length it hit)
      · unfold lengthFields at hit
        split at hit
        · rw [List.mem_singleton.mp hit]
          exact stoull_toString h.size
        · exact absurd hit List.not_mem_nil
  · by_contra hne
    have hlength : lengthFields call = [("Content-Length", toString call.content.length)] :=
      if_pos (List.length_pos_iff.mpr hne)
    have hmem : ("Content-Length", toString call.content.length) ∈ (message h).fields :=
      List.mem_cons_of_mem _ (List.mem_append_right _ (hlength ▸ List.mem_singleton_self _))
    rw [hnone _ hmem] at hsame
    exact absurd hsame (by simp)

/-- What the server is to read of some calls. -/
def messages {host : String} {program : List Call} (h : ∀ call ∈ program, Fits host call) :
    List Message :=
  program.pmap (fun _ hcall => message hcall) h

theorem framed_messages {host : String} {program : List Call}
    (h : ∀ call ∈ program, Fits host call) : ∀ m ∈ messages h, Framed m := by
  intro m hm
  obtain ⟨call, hcall, rfl⟩ := List.mem_pmap.mp hm
  exact framed_message (h call hcall)

theorem getElem?_messages {host : String} {program : List Call}
    (h : ∀ call ∈ program, Fits host call) {i : Nat} {m : Message} (hm : (messages h)[i]? = some m) :
    ∃ call, program[i]? = some call ∧ ∃ hcall : Fits host call, m = message hcall := by
  have hi : i < program.length := by
    have hlt := (List.getElem?_eq_some_iff.mp hm).1
    rwa [messages, List.length_pmap] at hlt
  refine ⟨program.get ⟨i, hi⟩, List.getElem?_eq_getElem hi, h _ (List.get_mem _ _), ?_⟩
  obtain ⟨hlt, hm⟩ := List.getElem?_eq_some_iff.mp hm
  rw [← hm]
  exact List.getElem_pmap (fun _ hcall => message hcall) h hlt

/-! ### Pieces -/

/-- The next bytes of what was sent. -/
theorem append_next {as bs : List Char} (h : as <+: bs) (n : Nat) :
    as ++ (bs.drop as.length).take n <+: bs := by
  obtain ⟨rest, rfl⟩ := h
  rw [List.drop_left]
  exact (List.prefix_append_right_inj _).mpr (List.take_prefix n rest)

theorem texts_mono (ms : List Message) {j k : Nat} (h : j ≤ k) : texts ms j <+: texts ms k := by
  obtain ⟨rest, hrest⟩ := List.take_prefix_take_left (l := ms) h
  unfold texts
  rw [← hrest, List.flatMap_append]
  exact List.prefix_append _ _

/-- The first `k` responses that were written. -/
def replies (handled : List (Request × String)) (k : Nat) : List Char :=
  (handled.take k).flatMap (fun e => e.2.toList)

theorem replies_succ (handled : List (Request × String)) (k : Nat) :
    replies handled (k + 1) = replies handled k ++ handled[k]?.elim [] (fun e => e.2.toList) := by
  unfold replies
  rw [List.take_add_one, List.flatMap_append]
  cases handled[k]? with
  | none => rfl
  | some e => simp

/-- More requests that are handled do not change the first responses. -/
theorem replies_of_prefix {handled more : List (Request × String)} (h : handled <+: more) {k : Nat}
    (hk : k ≤ handled.length) : replies more k = replies handled k := by
  obtain ⟨rest, rfl⟩ := h
  unfold replies
  rw [List.take_append_of_le_length hk]

/-! ### The client -/

/-- A handler writes a response that says how long it is, or nothing. -/
def Answers (text : String) : Prop := text = "" ∨ ∃ r : Reply, r.Framed ∧ r.text = text.toList

/-- The callback got what the text says. -/
def Answered (text : String) (result : Response) : Prop :=
  ∃ r : Reply, r.Framed ∧ r.text = text.toList ∧ result = r.response r.text

/-- A connection of the client, against the requests that the server has handled. -/
structure ClientCore (handled : List (Request × String)) (s : ClientConnection) : Prop where
  stream : s.stream <+: handled.flatMap (fun e => e.2.toList)
  asked : handled.length ≤ s.calls
  calls : s.calls ≤ s.results.length + 1
  count : s.results.length ≤ handled.length
  results : ∀ (i : Nat) (result : Response), s.results[i]? = some result →
    ∃ e, handled[i]? = some e ∧ Answered e.2 result

/-- What is read of the next response. -/
structure ClientReading (handled : List (Request × String)) (s : ClientConnection) : Prop where
  calls : s.calls = s.results.length + 1
  buffer : replies handled s.results.length ++ s.response.content.content <+: s.stream
  pos : s.pos = (replies handled s.results.length).length + s.response.content.content.length

/-- What holds in each phase. -/
def InClientPhase (handled : List (Request × String)) (s : ClientConnection) : ClientPhase → Prop
  | .idle => s.calls = s.results.length ∧ replies handled s.results.length <+: s.stream ∧
      s.pos = (replies handled s.results.length).length
  | .header => ClientReading handled s ∧ endOf crlf2 s.response.content.content = none ∧
      s.response = { content := { content := s.response.content.content, pos := 0 } }
  | .content need => ClientReading handled s ∧ 0 < need ∧ ∃ r : Reply, r.Framed ∧
      (∃ e : Request × String, handled[s.results.length]? = some e ∧ r.text = e.2.toList) ∧
        s.response = r.response s.response.content.content ∧
          s.response.content.content.length + need = r.text.length
  | .closed => True
  | .unframed | .failed | .looping => False

/-- The invariant of the client. -/
structure ClientInv (handled : List (Request × String)) (s : ClientConnection) : Prop where
  core : ClientCore handled s
  phase : InClientPhase handled s s.phase

theorem ClientInv.start : ClientInv [] {} where
  core := ⟨List.nil_prefix, Nat.le_refl 0, Nat.zero_le 1, Nat.le_refl 0,
    fun i result h => absurd h (by simp)⟩
  phase := ⟨rfl, List.nil_prefix, rfl⟩

/-- More requests are handled. -/
theorem ClientInv.grow {handled more : List (Request × String)} {s : ClientConnection}
    (h : ClientInv handled s) (hmore : handled <+: more) (hle : more.length ≤ s.calls) :
    ClientInv more s := by
  have hsame : replies more s.results.length = replies handled s.results.length :=
    replies_of_prefix hmore h.core.count
  have hget : ∀ (i : Nat) (e : Request × String), handled[i]? = some e → more[i]? = some e := by
    intro i e he
    obtain ⟨rest, rfl⟩ := hmore
    rw [List.getElem?_append_left (List.getElem?_eq_some_iff.mp he).1, he]
  have hstream : s.stream <+: more.flatMap (fun e => e.2.toList) := by
    obtain ⟨rest, rfl⟩ := hmore
    rw [List.flatMap_append]
    exact h.core.stream.trans (List.prefix_append _ _)
  have hphase := h.phase
  have hreading : ClientReading handled s → ClientReading more s := fun hr =>
    ⟨hr.calls, hsame ▸ hr.buffer, hsame ▸ hr.pos⟩
  refine ⟨⟨hstream, hle, h.core.calls, h.core.count.trans hmore.length_le, ?_⟩, ?_⟩
  · intro i result hresult
    obtain ⟨e, he, hanswered⟩ := h.core.results i result hresult
    exact ⟨e, hget i e he, hanswered⟩
  · cases hp : s.phase with
    | idle =>
        rw [hp] at hphase
        exact ⟨hphase.1, hsame ▸ hphase.2.1, hsame ▸ hphase.2.2⟩
    | header =>
        rw [hp] at hphase
        exact ⟨hreading hphase.1, hphase.2⟩
    | content need =>
        rw [hp] at hphase
        obtain ⟨hr, hneed, r, hframed, ⟨e, he, htext⟩, hresponse⟩ := hphase
        exact ⟨hreading hr, hneed, r, hframed, ⟨e, hget _ e he, htext⟩, hresponse⟩
    | closed => trivial
    | unframed | failed | looping =>
        rw [hp] at hphase
        exact hphase.elim

/-- More bytes reach the client. -/
theorem ClientInv.arrive {handled : List (Request × String)} {s : ClientConnection}
    (h : ClientInv handled s) (bytes : List Char)
    (hstream : s.stream ++ bytes <+: handled.flatMap (fun e => e.2.toList)) :
    ClientInv handled { s with stream := s.stream ++ bytes } := by
  have hphase := h.phase
  have hreading (phase : ClientPhase) : ClientReading handled s →
      ClientReading handled { s with stream := s.stream ++ bytes, phase } := fun hr =>
    ⟨hr.calls, hr.buffer.trans (List.prefix_append _ _), hr.pos⟩
  refine ⟨⟨hstream, h.core.asked, h.core.calls, h.core.count, h.core.results⟩, ?_⟩
  show InClientPhase handled { s with stream := s.stream ++ bytes } s.phase
  cases hp : s.phase with
  | idle =>
      rw [hp] at hphase
      exact ⟨hphase.1, hphase.2.1.trans (List.prefix_append _ _), hphase.2.2⟩
  | header =>
      rw [hp] at hphase
      exact ⟨hreading _ hphase.1, hphase.2⟩
  | content need =>
      rw [hp] at hphase
      exact ⟨hreading _ hphase.1, hphase.2⟩
  | closed => trivial
  | unframed | failed | looping =>
      rw [hp] at hphase
      exact hphase.elim

/-- The connection is given up. -/
theorem ClientInv.hangup {handled : List (Request × String)} {s : ClientConnection}
    (h : ClientInv handled s) : ClientInv handled { s with phase := .closed } :=
  ⟨⟨h.core.stream, h.core.asked, h.core.calls, h.core.count, h.core.results⟩, trivial⟩

/-- The next call. -/
theorem ClientInv.request {handled : List (Request × String)} {s : ClientConnection}
    (h : ClientInv handled s) (host : String) (program : List Call) :
    ClientInv handled (s.request host program) := by
  have hphase := h.phase
  unfold ClientConnection.request
  split
  · rename_i call hp hcall
    rw [hp] at hphase
    obtain ⟨hcalls, hbegin, hpos⟩ := hphase
    refine ⟨⟨h.core.stream, ?_, ?_, h.core.count, h.core.results⟩, ⟨?_, ?_, hpos⟩, rfl, rfl⟩
    · exact h.core.asked.trans (Nat.le_succ _)
    · exact Nat.succ_le_succ hcalls.le
    · exact congrArg Nat.succ hcalls
    · show replies handled s.results.length ++ [] <+: s.stream
      rw [List.append_nil]
      exact hbegin
  · exact h

/-! ### Responses are read -/

/-- A read takes the next bytes. -/
theorem ClientReading.fill {handled : List (Request × String)} {s : ClientConnection}
    (h : ClientReading handled s) (n : Nat) :
    ClientReading handled (s.fill ((s.stream.drop s.pos).take n)) := by
  obtain ⟨rest, hrest⟩ := h.buffer
  have hdrop : s.stream.drop s.pos = rest := by
    rw [← hrest, h.pos, ← List.length_append, List.drop_left]
  refine ⟨h.calls, ?_, ?_⟩
  · show replies handled s.results.length ++ (s.response.content.content ++ _) <+: s.stream
    rw [hdrop, ← List.append_assoc, ← hrest]
    exact (List.prefix_append_right_inj _).mpr (List.take_prefix n rest)
  · show s.pos + _ = _ + (s.response.content.content ++ _).length
    rw [h.pos, List.length_append, Nat.add_assoc]
    rfl

/-- What was read is the beginning of the next response, where there is one. -/
theorem ClientReading.begins {handled : List (Request × String)} {s : ClientConnection}
    (h : ClientReading handled s) (hcore : ClientCore handled s) :
    s.response.content.content
      <+: handled[s.results.length]?.elim [] (fun e => e.2.toList) := by
  have hwritten : handled.flatMap (fun e => e.2.toList) = replies handled (s.results.length + 1) := by
    have hle := hcore.asked
    rw [h.calls] at hle
    unfold replies
    rw [List.take_of_length_le hle]
  have hbegin := h.buffer.trans hcore.stream
  rw [hwritten, replies_succ] at hbegin
  exact (List.prefix_append_right_inj _).mp hbegin

/-- All of the response was read. -/
theorem ClientInv.callback {handled : List (Request × String)} {s : ClientConnection}
    (hcore : ClientCore handled s) (hreading : ClientReading handled s) {r : Reply}
    (hframed : r.Framed) {e : Request × String} (he : handled[s.results.length]? = some e)
    (htext : r.text = e.2.toList) (hresponse : s.response = r.response r.text) :
    ClientInv handled s.callback := by
  have hcontent : s.response.content.content = e.2.toList := by
    rw [hresponse, ← htext]
    rfl
  have hnext : replies handled (s.results.length + 1)
      = replies handled s.results.length ++ s.response.content.content := by
    rw [replies_succ, he, hcontent]
    rfl
  have hlength : (s.results ++ [s.response]).length = s.results.length + 1 := List.length_append
  refine ⟨⟨hcore.stream, hcore.asked, ?_, ?_, ?_⟩, ?_, ?_, ?_⟩
  · show s.calls ≤ (s.results ++ [s.response]).length + 1
    rw [hlength, hreading.calls]
    exact Nat.le_succ _
  · show (s.results ++ [s.response]).length ≤ handled.length
    rw [hlength]
    exact (List.getElem?_eq_some_iff.mp he).1
  · intro i result hresult
    have hresult : (s.results ++ [s.response])[i]? = some result := hresult
    rcases Nat.lt_or_ge i s.results.length with hi | hi
    · rw [List.getElem?_append_left hi] at hresult
      exact hcore.results i result hresult
    · -- It is the new one.
      have hi : i = s.results.length := by
        have hlt := (List.getElem?_eq_some_iff.mp hresult).1
        omega
      rw [hi, List.getElem?_concat_length] at hresult
      rw [hi, ← Option.some.inj hresult]
      exact ⟨e, he, r, hframed, htext, hresponse⟩
  · show s.calls = (s.results ++ [s.response]).length
    rw [hlength, hreading.calls]
  · show replies handled (s.results ++ [s.response]).length <+: s.stream
    rw [hlength, hnext]
    exact hreading.buffer
  · show s.pos = (replies handled (s.results ++ [s.response]).length).length
    rw [hlength, hnext, List.length_append]
    exact hreading.pos

/-- The header is there. -/
theorem ClientInv.parsed {handled : List (Request × String)} {s : ClientConnection}
    (hcore : ClientCore handled s) (hreading : ClientReading handled s) {r : Reply}
    (hframed : r.Framed) {e : Request × String} (he : handled[s.results.length]? = some e)
    (htext : r.text = e.2.toList)
    (hresponse : s.response = { content := { content := s.response.content.content, pos := 0 } })
    (hhead : r.head.length ≤ s.response.content.content.length) :
    ClientInv handled (s.parsed r.head.length) := by
  have hbegin := hreading.begins hcore
  rw [he] at hbegin
  have hbegin' : s.response.content.content <+: r.head ++ r.content := by
    show _ <+: r.text
    rw [htext]
    exact hbegin
  obtain ⟨rest, hbuffer⟩ : ∃ rest, s.response.content.content = r.head ++ rest := by
    obtain ⟨rest, hrest⟩ := List.prefix_of_prefix_length_le (List.prefix_append _ _) hbegin' hhead
    exact ⟨rest, hrest.symm⟩
  obtain ⟨missing, hmissing⟩ : ∃ missing, rest ++ missing = r.content := by
    rw [hbuffer] at hbegin'
    exact (List.prefix_append_right_inj _).mp hbegin'
  have hsize : s.response.content.content.length = r.head.length + rest.length := by
    rw [hbuffer, List.length_append]
  have hcontent : r.content.length = rest.length + missing.length := by
    rw [← hmissing, List.length_append]
  have hparse : parse_response_header (s.response.content.content.length + 1) s.response
      = some (r.response s.response.content.content) := by
    have hfields := r.fields_lt_head
    rw [hresponse, hbuffer]
    exact parse_reply r rest (by rw [List.length_append]; omega)
  -- The response with its header, whose content is read next.
  let s' : ClientConnection := { s with response := r.response s.response.content.content }
  have hcore' : ClientCore handled s' :=
    ⟨hcore.stream, hcore.asked, hcore.calls, hcore.count, hcore.results⟩
  have hreading' : ClientReading handled s' := ⟨hreading.calls, hreading.buffer, hreading.pos⟩
  have hwhole : missing = [] → ClientInv handled s'.callback := by
    intro hnil
    refine .callback hcore' hreading' hframed he htext ?_
    show r.response s.response.content.content = r.response r.text
    rw [hbuffer, Reply.text, ← hmissing, hnil, List.append_nil]
  have hfind (name : String) : (r.response s.response.content.content).find name
      = findField (r.fields.map Field.pair) name := rfl
  unfold ClientConnection.parsed
  dsimp only
  rw [hparse]
  dsimp only
  rw [hfind "Content-Length"]
  cases hlength : findField (r.fields.map Field.pair) "Content-Length" with
  | none =>
      obtain ⟨hempty, hchunked, hsession⟩ := hframed.empty hlength
      have hversion : ¬ (r.response s.response.content.content).http_version < "1.1" := by
        show ¬ ("1.1" : String) < "1.1"
        decide
      dsimp only
      rw [if_neg (by rw [hfind, hchunked]; simp),
        if_neg (by rw [hfind, hsession]; simpa using hversion)]
      rw [← hmissing] at hempty
      exact hwhole (List.append_eq_nil_iff.mp hempty).2
  | some it =>
      dsimp only
      rw [hframed.length it hlength]
      dsimp only
      by_cases hmore : s.response.content.content.length - r.head.length < r.content.length
      · rw [if_pos hmore]
        refine ⟨⟨hcore.stream, hcore.asked, hcore.calls, hcore.count, hcore.results⟩,
          ⟨hreading.calls, hreading.buffer, hreading.pos⟩, ?_, r, hframed, ⟨e, he, htext⟩, rfl, ?_⟩
        · omega
        · show s.response.content.content.length + _ = (r.head ++ r.content).length
          rw [List.length_append]
          omega
      · rw [if_neg hmore]
        exact hwhole (List.eq_nil_of_length_eq_zero (by omega))

/-- A completion of a read. -/
theorem ClientInv.read {handled : List (Request × String)} {s : ClientConnection}
    (h : ClientInv handled s) (hanswers : ∀ e ∈ handled, Answers e.2) (n : Nat) :
    ClientInv handled (s.read n) := by
  have hphase := h.phase
  by_cases heq : s.phase = .header
  · rw [heq] at hphase
    obtain ⟨hreading, -, hresponse⟩ := hphase
    let s' := s.fill ((s.stream.drop s.pos).take n)
    have hcore' : ClientCore handled s' :=
      ⟨h.core.stream, h.core.asked, h.core.calls, h.core.count, h.core.results⟩
    have hreading' : ClientReading handled s' := hreading.fill n
    have hresponse' : s'.response
        = { content := { content := s'.response.content.content, pos := 0 } } := by
      show ({ s.response with content := _ } : Response) = _
      rw [hresponse]
      rfl
    have hbegin := hreading'.begins hcore'
    have hwaiting : endOf crlf2 s'.response.content.content = none → ClientInv handled s' := by
      intro hnone
      refine ⟨hcore', ?_⟩
      rw [show s'.phase = .header from heq]
      exact ⟨hreading', hnone, hresponse'⟩
    rw [ClientConnection.read_header heq]
    show ClientInv handled ((endOf crlf2 s'.response.content.content).elim s' s'.parsed)
    -- Nothing was written yet, or nothing at all, or a response.
    have hnothing : s'.response.content.content <+: [] → ClientInv handled
        ((endOf crlf2 s'.response.content.content).elim s' s'.parsed) := by
      intro hnil
      have hempty : endOf crlf2 s'.response.content.content = none := by
        rw [List.prefix_nil.mp hnil]
        rfl
      rw [hempty, Option.elim_none]
      exact hwaiting hempty
    cases he : handled[s'.results.length]? with
    | none =>
        rw [he] at hbegin
        exact hnothing hbegin
    | some e =>
        rw [he] at hbegin
        rcases hanswers e (List.mem_of_getElem? he) with htext | ⟨r, hframed, htext⟩
        · refine hnothing ?_
          have hbegin : _ <+: e.2.toList := hbegin
          rw [htext] at hbegin
          exact hbegin
        · have hbegin : _ <+: e.2.toList := hbegin
          rw [← htext] at hbegin
          have hend := endOf_of_prefix hbegin r.endOf_text
          by_cases hhead : r.head.length ≤ s'.response.content.content.length
          · rw [hend, if_pos hhead, Option.elim_some]
            exact .parsed hcore' hreading' hframed he htext hresponse' hhead
          · rw [if_neg hhead] at hend
            rw [hend, Option.elim_none]
            exact hwaiting hend
  unfold ClientConnection.read
  split
  · rename_i hheader
    exact absurd hheader heq
  · rename_i need hcontent
    rw [hcontent] at hphase
    obtain ⟨hreading, hneed, r, hframed, ⟨e, he, htext⟩, hresponse, hlength⟩ := hphase
    let bytes := (s.stream.drop s.pos).take (min n need)
    let s' := s.fill bytes
    have hcore' : ClientCore handled s' :=
      ⟨h.core.stream, h.core.asked, h.core.calls, h.core.count, h.core.results⟩
    have hreading' : ClientReading handled s' := hreading.fill (min n need)
    have hresponse' : s'.response = r.response s'.response.content.content := by
      show ({ s.response with content := _ } : Response) = _
      rw [hresponse]
      rfl
    have hlength' : s'.response.content.content.length
        = s.response.content.content.length + bytes.length := List.length_append
    have hbytes : bytes.length ≤ need :=
      (List.length_take_le _ _).trans (Nat.min_le_right n need)
    show ClientInv handled (if bytes.length < need
      then { s' with phase := .content (need - bytes.length) } else s'.callback)
    by_cases hmore : bytes.length < need
    · rw [if_pos hmore]
      refine ⟨⟨hcore'.stream, hcore'.asked, hcore'.calls, hcore'.count, hcore'.results⟩,
        ⟨hreading'.calls, hreading'.buffer, hreading'.pos⟩, ?_, r, hframed, ⟨e, he, htext⟩,
        hresponse', ?_⟩
      · omega
      · show s'.response.content.content.length + (need - bytes.length) = _
        omega
    · rw [if_neg hmore]
      have hbegin := hreading'.begins hcore'
      rw [show handled[s'.results.length]? = some e from he] at hbegin
      have hbegin : _ <+: e.2.toList := hbegin
      rw [← htext] at hbegin
      have hwhole : s'.response.content.content = r.text := hbegin.eq_of_length (by omega)
      refine .callback hcore' hreading' hframed he htext ?_
      rw [hresponse', hwhole]
  · exact h

/-! ### The server -/

section
variable {η : Type} {server : Server η} {write : Nat → η → Request → List String → String}

/-- No bytes have come, and what was handled stays. -/
structure Later (before s : Connection) : Prop where
  stream : s.stream = before.stream
  handled : before.handled <+: s.handled

theorem Later.handle {before s : Connection} (h : Later before s) :
    Later before (s.handle server write) := by
  unfold Connection.handle
  split
  · exact ⟨h.stream, h.handled⟩
  · exact ⟨h.stream, h.handled.trans (List.prefix_append _ _)⟩

theorem Later.parsed {before s : Connection} (h : Later before s) (bytes_transferred : Nat) :
    Later before (s.parsed server write bytes_transferred) := by
  have hrequest (request : Request) : Later before { s with request } := ⟨h.stream, h.handled⟩
  unfold Connection.parsed
  dsimp only
  split
  · exact ⟨h.stream, h.handled⟩
  · exact ⟨h.stream, h.handled⟩
  · split
    · exact (hrequest _).handle
    · split
      · exact ⟨h.stream, h.handled⟩
      · split
        · exact ⟨h.stream, h.handled⟩
        · exact (hrequest _).handle

theorem Later.read {before s : Connection} (h : Later before s) (n : Nat) :
    Later before (s.read server write n) := by
  have hfill (bytes : List Char) : Later before (s.fill bytes) := ⟨h.stream, h.handled⟩
  unfold Connection.read
  dsimp only
  split
  · split
    · exact hfill _
    · exact (hfill _).parsed _
  · split
    · exact ⟨h.stream, h.handled⟩
    · exact (hfill _).handle
  · exact h

theorem Later.sent {before s : Connection} (h : Later before s) : Later before (s.sent server) := by
  unfold Connection.sent
  split
  · dsimp only
    split <;> exact ⟨h.stream, h.handled⟩
  · exact h

/-- A step other than the arrival of bytes. -/
theorem later_step (s : Connection) {e : Model.Http.Event} (he : ∀ bytes, e ≠ .arrive bytes) :
    Later s (s.step server write e) := by
  have hclock : Later s { s with steps := s.steps + 1 } := ⟨rfl, List.prefix_refl _⟩
  cases e with
  | arrive bytes => exact absurd rfl (he bytes)
  | read n => exact hclock.read n
  | sent => exact hclock.sent
  | lost =>
      show Later s (if s.phase = .looping then _ else _)
      split
      · exact hclock
      · exact ⟨hclock.stream, hclock.handled⟩

end

/-! ### Both ends -/

section
variable {η : Type} (server : Server η) (write : Nat → η → Request → List String → String)
  {host : String} {program : List Call} (hprogram : ∀ call ∈ program, Fits host call)

/-- The invariant. `lost` says whether the server has lost the connection. -/
structure ExchangeInv (lost : Prop) (w : Exchange) : Prop where
  server : Inv server write (messages hprogram) lost w.server
  client : ClientInv w.server.handled w.client
  sent : w.client.sent = texts (messages hprogram) w.client.calls
  calls : w.client.calls ≤ program.length
  arrived : w.server.stream <+: w.client.sent

variable {server write hprogram} {lost : Prop}

theorem length_messages : (messages hprogram).length = program.length := List.length_pmap

/-- What was handled was asked for. -/
theorem asked {s : Connection} {calls : Nat} (h : Inv server write (messages hprogram) lost s)
    (hsent : s.stream <+: texts (messages hprogram) calls) : s.handled.length ≤ calls := by
  have hhandled : s.handled.length ≤ (messages hprogram).length := by
    have hlength := congrArg List.length h.core.requests
    rw [List.length_map, List.length_map, List.length_take] at hlength
    omega
  have harrived := h.core.arrived.trans hsent.length_le
  by_contra hlt
  have := length_texts_lt (Nat.lt_of_not_le hlt) hhandled
  omega

/-- A step of the server. -/
theorem ExchangeInv.serverStep {w : Exchange} (h : ExchangeInv server write hprogram lost w)
    (e : Model.Http.Event) (hwaits : Waits (messages hprogram) w.server e)
    (hmore : w.server.handled <+: (w.server.step server write e).handled)
    (harrived : (w.server.step server write e).stream <+: w.client.sent) :
    ExchangeInv server write hprogram (lost ∨ e = .lost)
      { w with server := w.server.step server write e } := by
  have hserver := inv_step (framed_messages hprogram) h.server e hwaits
  have hsent := harrived
  rw [h.sent] at hsent
  exact ⟨hserver, h.client.grow hmore (asked hserver hsent), h.sent, h.calls, harrived⟩

/-- A step of the server that is no arrival. -/
theorem ExchangeInv.serverLater {w : Exchange} (h : ExchangeInv server write hprogram lost w)
    {e : Model.Http.Event} (he : ∀ bytes, e ≠ .arrive bytes) :
    ExchangeInv server write hprogram (lost ∨ e = .lost)
      { w with server := w.server.step server write e } := by
  have hlater := @later_step _ server write w.server e he
  have hwaits : Waits (messages hprogram) w.server e := by
    cases e with
    | arrive bytes => exact absurd rfl (he bytes)
    | _ => trivial
  exact h.serverStep e hwaits hlater.handled (hlater.stream ▸ h.arrived)

theorem ExchangeInv.mono {lost' : Prop} {w : Exchange} (h : ExchangeInv server write hprogram lost w)
    (himp : lost → lost') : ExchangeInv server write hprogram lost' w :=
  ⟨h.server.mono himp, h.client, h.sent, h.calls, h.arrived⟩

/-- The server has got the calls in their order. -/
theorem ExchangeInv.received {w : Exchange} (h : ExchangeInv server write hprogram lost w)
    {i : Nat} {e : Request × String} (he : w.server.handled[i]? = some e) :
    ∃ call, program[i]? = some call ∧ Received host call e.1 := by
  have hi := (List.getElem?_eq_some_iff.mp he).1
  have hrequest := congrArg (fun l : List Request => l[i]?) h.server.core.requests
  rw [List.getElem?_map, he, List.getElem?_map, List.getElem?_take_of_lt hi] at hrequest
  obtain ⟨m, hm, heq⟩ := Option.map_eq_some_iff.mp hrequest.symm
  obtain ⟨call, hcall, hfits, rfl⟩ := getElem?_messages hprogram hm
  exact ⟨call, hcall, heq ▸ received_message hfits⟩

variable (host program write) in
/-- Each call is answered. -/
def AnswersAll : Prop :=
  ∀ call ∈ program, ∀ now handler request groups, Received host call request →
    Answers (write now handler request groups)

/-- The handlers have written what they write. -/
theorem ExchangeInv.answers {w : Exchange} (h : ExchangeInv server write hprogram lost w)
    (hwrite : AnswersAll write host program) : ∀ e ∈ w.server.handled, Answers e.2 := by
  intro e he
  obtain ⟨now, handler, groups, -, htext⟩ := h.server.core.written e he
  obtain ⟨i, hi⟩ := List.getElem?_of_mem he
  obtain ⟨call, hcall, hreceived⟩ := h.received hi
  rw [htext]
  exact hwrite call (List.mem_of_getElem? hcall) now handler e.1 groups hreceived

/-- The next call. -/
theorem ExchangeInv.request {w : Exchange} (h : ExchangeInv server write hprogram lost w) :
    ExchangeInv server write hprogram lost { w with client := w.client.request host program } := by
  have hclient := h.client.request host program
  revert hclient
  unfold ClientConnection.request
  split
  · rename_i call _ hcall
    intro hclient
    have hlt : w.client.calls < program.length := (List.getElem?_eq_some_iff.mp hcall).1
    have hm : ∃ m, (messages hprogram)[w.client.calls]? = some m :=
      ⟨_, List.getElem?_eq_getElem (by rw [length_messages]; exact hlt)⟩
    obtain ⟨m, hm⟩ := hm
    obtain ⟨call', hcall', hfits, rfl⟩ := getElem?_messages hprogram hm
    obtain rfl : call = call' := Option.some.inj (hcall.symm.trans hcall')
    refine ⟨h.server, hclient, ?_, hlt, h.arrived.trans (List.prefix_append _ _)⟩
    show w.client.sent ++ call.text host = texts (messages hprogram) (w.client.calls + 1)
    rw [texts_succ, hm, h.sent, ← text_message hfits]
    rfl
  · intro _
    exact h

/-- One step. -/
theorem ExchangeInv.step {w : Exchange} (h : ExchangeInv server write hprogram lost w)
    (hwrite : AnswersAll write host program)
    (e : Exchange.Event) :
    ExchangeInv server write hprogram (lost ∨ e = .lost) (w.step server write host program e) := by
  cases e with
  | request => exact h.request.mono .inl
  | toServer n =>
      have hnext := append_next h.arrived n
      let bytes := (w.client.sent.drop w.server.stream.length).take n
      have hwaits : w.server.stream ++ bytes
          <+: texts (messages hprogram) (w.server.handled.length + 1) := by
        have hcalls := h.client.core.calls.trans (Nat.succ_le_succ h.client.core.count)
        refine hnext.trans ?_
        rw [h.sent]
        exact texts_mono _ hcalls
      exact (h.serverStep (.arrive bytes) hwaits (List.prefix_refl _) hnext).mono (.imp_right (by simp))
  | server n => exact (h.serverLater (by simp)).mono (.imp_right (by simp))
  | sent => exact (h.serverLater (by simp)).mono (.imp_right (by simp))
  | lost => exact (h.serverLater (by simp)).mono (.imp_right (by simp))
  | toClient n =>
      exact ⟨h.server.mono .inl, h.client.arrive _ (append_next h.client.core.stream n), h.sent,
        h.calls, h.arrived⟩
  | client n =>
      obtain ⟨hsent, hcalls⟩ := w.client.read_sent n
      have hread := h.client.read (h.answers hwrite) n
      refine ⟨h.server.mono .inl, hread, ?_, hcalls ▸ h.calls, hsent ▸ h.arrived⟩
      show (w.client.read n).sent = texts _ (w.client.read n).calls
      rw [hsent, hcalls, h.sent]
  | hangup => exact ⟨h.server.mono .inl, h.client.hangup, h.sent, h.calls, h.arrived⟩

theorem ExchangeInv.start : ExchangeInv server write hprogram False {} :=
  ⟨inv_start, .start, rfl, Nat.zero_le _, List.nil_prefix⟩

/-- A run. -/
theorem ExchangeInv.exec (hwrite : AnswersAll write host program)
    (events : List Exchange.Event) :
    ExchangeInv server write hprogram (Exchange.Event.lost ∈ events)
      (exec (Exchange.step server write host program) {} events) := by
  let I (taken : List Exchange.Event) (w : Exchange) : Prop :=
    ExchangeInv server write hprogram (Exchange.Event.lost ∈ taken) w
  have hstart : I [] {} := ExchangeInv.start.mono False.elim
  have hstep : ∀ taken w, ∀ e ∈ events, I taken w → True →
      I (taken ++ [e]) (w.step server write host program e) := by
    intro taken w e _ h _
    refine (h.step hwrite e).mono ?_
    rintro (h | rfl)
    · exact List.mem_append_left _ h
    · exact List.mem_append_right _ List.mem_cons_self
  exact Run.exec_history (C := fun _ _ => True) {} events hstep hstart
    ((Run.meets_iff_forall_split _ _ _ _).mpr fun _ _ _ _ => trivial)

/-- When all bytes have come and were read, all calls were answered, up to a handler that has
written nothing. -/
theorem ExchangeInv.complete {w : Exchange} (h : ExchangeInv server write hprogram lost w)
    (hwrite : AnswersAll write host program)
    (hserver : w.server.phase ≠ .closed) (hclient : w.client.phase ≠ .closed)
    (harrived : w.server.stream = w.client.sent) (hread : w.server.pos = w.server.stream.length)
    (hback : w.client.stream = Exchange.written w.server)
    (hpos : w.client.pos = w.client.stream.length) :
    w.client.results.length = w.client.calls ∨
      ∃ e, w.server.handled[w.client.results.length]? = some e ∧ e.2 = "" := by
  have hhandled : w.server.handled.length = w.client.calls :=
    handled_of_read h.server hserver (by rw [length_messages]; exact h.calls)
      (harrived.trans h.sent) hread
  -- What is in the buffer is the whole next response.
  have hreading : ClientReading w.server.handled w.client →
      ∃ e, w.server.handled[w.client.results.length]? = some e ∧
        w.client.response.content.content = e.2.toList := by
    intro hr
    have hcount := hr.calls
    obtain ⟨e, he⟩ : ∃ e, w.server.handled[w.client.results.length]? = some e :=
      ⟨_, List.getElem?_eq_getElem (by omega)⟩
    refine ⟨e, he, ?_⟩
    have hwritten : Exchange.written w.server
        = replies w.server.handled w.client.results.length ++ e.2.toList := by
      have hnext := replies_succ w.server.handled w.client.results.length
      rw [he] at hnext
      refine Eq.trans ?_ hnext
      rw [replies, List.take_of_length_le (by omega)]
      rfl
    have hwhole : replies w.server.handled w.client.results.length
        ++ w.client.response.content.content = Exchange.written w.server := by
      rw [← hback]
      exact hr.buffer.eq_of_length (by rw [List.length_append, ← hpos, hr.pos])
    rw [hwritten] at hwhole
    exact List.append_cancel_left hwhole
  have hphase := h.client.phase
  cases hp : w.client.phase with
  | idle =>
      rw [hp] at hphase
      exact .inl hphase.1.symm
  | header =>
      rw [hp] at hphase
      obtain ⟨hr, hnone, -⟩ := hphase
      obtain ⟨e, he, hbuffer⟩ := hreading hr
      rcases h.answers hwrite e (List.mem_of_getElem? he) with htext | ⟨r, -, htext⟩
      · exact .inr ⟨e, he, htext⟩
      · rw [hbuffer, ← htext, r.endOf_text] at hnone
        exact absurd hnone (by simp)
  | content need =>
      rw [hp] at hphase
      obtain ⟨hr, hneed, r, -, ⟨e, he, htext⟩, -, hlength⟩ := hphase
      obtain ⟨e', he', hbuffer⟩ := hreading hr
      obtain rfl : e = e' := Option.some.inj (he.symm.trans he')
      rw [hbuffer, ← htext] at hlength
      omega
  | closed => exact absurd hp hclient
  | unframed | failed | looping =>
      rw [hp] at hphase
      exact hphase.elim

end

/-- For every program of calls, all pieces in which bytes come and are read, and every order of the
events of both ends: the server handles the calls in their order and gets each as it was made, and
each result of the client is what the handler wrote for that call. There is at most one call that
waits. When all bytes were read, it waits only for a handler that has written nothing. -/
theorem calls_answered {η : Type} (server : Server η)
    (write : Nat → η → Request → List String → String) (host : String) (program : List Call)
    (hprogram : ∀ call ∈ program, Fits host call)
    (hwrite : AnswersAll write host program)
    (events : List Exchange.Event) :
    let w := exec (Exchange.step server write host program) {} events
    (∀ (i : Nat) (result : Response), w.client.results[i]? = some result →
      ∃ call request now handler groups, program[i]? = some call ∧ Received host call request ∧
        find_resource server request = some (handler, groups) ∧
          w.server.handled[i]? = some (request, write now handler request groups) ∧
            Answered (write now handler request groups) result) ∧
      (∀ (i : Nat) (e : Request × String), w.server.handled[i]? = some e →
        ∃ call, program[i]? = some call ∧ Received host call e.1) ∧
      w.client.results.length ≤ w.server.handled.length ∧
      w.server.handled.length ≤ w.client.calls ∧ w.client.calls ≤ w.client.results.length + 1 ∧
      (w.server.phase ≠ .closed → w.client.phase ≠ .closed → w.server.stream = w.client.sent →
        w.server.pos = w.server.stream.length → w.client.stream = Exchange.written w.server →
          w.client.pos = w.client.stream.length → w.client.results.length = w.client.calls ∨
            ∃ e, w.server.handled[w.client.results.length]? = some e ∧ e.2 = "") ∧
      w.server.phase ≠ .looping ∧
      w.client.phase ≠ .looping ∧ w.client.phase ≠ .failed ∧ w.client.phase ≠ .unframed := by
  intro w
  have h : ExchangeInv server write hprogram (Exchange.Event.lost ∈ events) w :=
    .exec hwrite events
  have hserver : w.server.phase ≠ .looping := by
    intro hp
    have hphase := h.server.phase
    rw [hp] at hphase
    exact hphase
  have hclient : w.client.phase ≠ .looping ∧ w.client.phase ≠ .failed ∧
      w.client.phase ≠ .unframed := by
    have hphase := h.client.phase
    refine ⟨fun hp => ?_, fun hp => ?_, fun hp => ?_⟩ <;>
      (rw [hp] at hphase; exact hphase)
  have hasked : w.server.handled.length ≤ w.client.calls := h.client.core.asked
  refine ⟨?_, fun i e => h.received, h.client.core.count, hasked, h.client.core.calls,
    h.complete hwrite, hserver, hclient⟩
  intro i result hresult
  obtain ⟨e, he, hanswered⟩ := h.client.core.results i result hresult
  obtain ⟨call, hcall, hrequest⟩ := h.received he
  obtain ⟨now, handler, groups, hfind, htext⟩ := h.server.core.written e (List.mem_of_getElem? he)
  refine ⟨call, e.1, now, handler, groups, hcall, hrequest, hfind, ?_, htext ▸ hanswered⟩
  rw [he, ← htext]

/-- A call with a content. -/
def someCalls : List Call := [{ method := "POST", path := "", content := ['h', 'i'] }]

/-- The request and the response are both read in two pieces. -/
def someEvents : List Exchange.Event :=
  [.request, .toServer 40, .server 100, .toServer 100, .server 100, .toClient 60, .client 59,
    .toClient 100, .client 100]

theorem fits_someCalls : ∀ call ∈ someCalls, Fits "h" call := by
  intro call hcall
  rw [List.mem_singleton.mp hcall]
  exact ⟨by decide, by decide, by decide, by decide, by decide, by decide⟩

theorem calls_answered_one :
    (exec (Exchange.step { default_resource := [("POST", ())] }
      (fun _ _ _ _ => Model.Requests.setResponse404 "no") "h" someCalls) {}
        someEvents).client.results.length = 1 := by
  let server : Server Unit := { default_resource := [("POST", ())] }
  have hwrite : AnswersAll (fun (_ : Nat) (_ : Unit) (_ : Request) (_ : List String) =>
      Model.Requests.setResponse404 "no") "h" someCalls := by
    intro _ _ _ _ _ _ _
    obtain ⟨r, hframed, htext, -⟩ := @writes_404 "no" (by decide)
    exact .inr ⟨r, hframed, htext⟩
  obtain ⟨-, -, -, -, -, hcomplete, -⟩ :=
    calls_answered server _ "h" someCalls fits_someCalls hwrite someEvents
  rcases hcomplete (by decide +kernel) (by decide +kernel) (by decide +kernel) (by decide +kernel)
    (by decide +kernel) (by decide +kernel) with hall | ⟨e, he, -⟩
  · rw [hall]
    decide +kernel
  · -- There is no request behind the one that was handled.
    have hlt := (List.getElem?_eq_some_iff.mp he).1
    exact absurd hlt (by decide +kernel)

end WatchedAgent.Proofs.Exchanges
