import WatchedAgent.Lib.Run
import WatchedAgent.Proofs.RequestText

/-!
# `WatchedAgent.Proofs.Connections`: the requests of a connection

The bytes of a connection come in pieces that have nothing to do with the requests. A read may
end within the delimiter, or bring a part of the content with the header.

* `requests_in_order`: a client that waits for each response has its requests handled one after
  the other, with what it has sent, whatever the pieces are.
-/

set_option autoImplicit false

namespace WatchedAgent.Proofs.Connections

open WatchedAgent.Lib
open WatchedAgent.Lib.Delimited
open WatchedAgent.Lib.Run (Meets exec)
open WatchedAgent.Model
open WatchedAgent.Model.Http
open WatchedAgent.Proofs.RequestText

/-! ### What the client sends -/

/-- The content is as long as each field for its length says, and there is one if there is a
content. -/
structure Framed (m : Message) : Prop where
  length : ∀ it ∈ m.fields, case_insensitive_equal it.1 "Content-Length" = true →
    stoull it.2 = some m.content.length
  empty : (∀ it ∈ m.fields, case_insensitive_equal it.1 "Content-Length" = false) →
    m.content = []

theorem framed_iff {m : Message} : Framed m ↔
    (∀ it ∈ m.fields, case_insensitive_equal it.1 "Content-Length" = true →
      stoull it.2 = some m.content.length) ∧
    ((∀ it ∈ m.fields, case_insensitive_equal it.1 "Content-Length" = false) →
      m.content = []) :=
  ⟨fun h => ⟨h.length, h.empty⟩, fun h => ⟨h.1, h.2⟩⟩

instance (m : Message) : Decidable (Framed m) := decidable_of_iff _ framed_iff.symm

/-- The first `k` requests. -/
def texts (ms : List Message) (k : Nat) : List Char := (ms.take k).flatMap Message.text

/-- The client sends nothing of a request before the one before was handled. It may have all of a
response before the server knows that it was sent. -/
def Waits (ms : List Message) (s : Connection) : Http.Event → Prop
  | .arrive bytes => s.stream ++ bytes <+: texts ms (s.handled.length + 1)
  | _ => True

instance decidableWaits (ms : List Message) (s : Connection) : ∀ e, Decidable (Waits ms s e)
  | .arrive bytes => inferInstanceAs
      (Decidable (s.stream ++ bytes <+: texts ms (s.handled.length + 1)))
  | .read _ | .sent | .lost => isTrue trivial

theorem texts_succ (ms : List Message) (k : Nat) :
    texts ms (k + 1) = texts ms k ++ ms[k]?.elim [] Message.text := by
  unfold texts
  rw [List.take_add_one, List.flatMap_append]
  cases ms[k]? with
  | none => rfl
  | some m => simp

theorem text_ne_nil (m : Message) : 4 ≤ m.head.length ∧ m.fields.length < m.head.length := by
  have hfields : m.fields.length ≤ (linesText (m.fields.map Message.fieldLine)).length := by
    induction m.fields with
    | nil => exact Nat.le_refl 0
    | cons f fields ih =>
        simp only [linesText, List.map_cons, List.flatMap_cons, List.length_append,
          List.length_cons] at ih ⊢
        omega
  have hhead : m.head.length
      = m.firstLine.length + 2 + (linesText (m.fields.map Message.fieldLine)).length + 2 := by
    simp only [Message.head, Message.lines, linesText, List.flatMap_cons, List.length_append,
      List.length_cons, List.length_nil]
  omega

/-- Some requests are the beginning of more. -/
theorem texts_begins (ms : List Message) (k : Nat) : texts ms k <+: texts ms (k + 1) := by
  rw [texts_succ]
  exact List.prefix_append _ _

/-- More requests are more bytes. -/
theorem length_texts_lt {ms : List Message} {j k : Nat} (hjk : j < k) (hk : k ≤ ms.length) :
    (texts ms j).length < (texts ms k).length := by
  induction k with
  | zero => omega
  | succ k ih =>
      obtain ⟨m, hget⟩ : ∃ m, ms[k]? = some m := ⟨_, List.getElem?_eq_getElem (by omega)⟩
      rw [texts_succ, hget, List.length_append]
      have htext : 4 ≤ m.text.length := by
        have hhead := (text_ne_nil m).1
        unfold Message.text
        rw [List.length_append]
        omega
      show _ < _ + m.text.length
      rcases Nat.lt_or_ge j k with h | h
      · have := ih h (by omega)
        omega
      · obtain rfl : j = k := by omega
        omega

/-! ### The invariant -/

section
variable {η : Type} (server : Server η) (write : Nat → η → Request → List String → String)
  (ms : List Message)

/-- The requests that were handled are the first ones of the client, with what it has sent, and all
of their bytes were there. The responses are what their handlers have written. -/
structure Core (s : Connection) : Prop where
  stream : s.stream <+: texts ms (s.handled.length + 1)
  requests : s.handled.map Prod.fst = (ms.take s.handled.length).map (fun m => m.request m.text)
  written : ∀ e ∈ s.handled, ∃ now handler groups,
    find_resource server e.1 = some (handler, groups) ∧ e.2 = write now handler e.1 groups
  responses : s.responses = (s.handled.take s.responses.length).map Prod.snd
  arrived : (texts ms s.handled.length).length ≤ s.stream.length

/-- What is read of the next request. All before were answered, and keep the connection. -/
structure Reading (s : Connection) : Prop where
  answered : s.handled.length = s.responses.length
  keeps : ∀ e ∈ s.handled, keepsAlive server.order e.1 = true
  buffer : texts ms s.responses.length ++ s.request.content.content <+: s.stream
  pos : s.pos = (texts ms s.responses.length).length + s.request.content.content.length

/-- What closes a connection: an event, a request that does not keep it, or one that has no
handler. -/
def Reason (lost : Prop) (s : Connection) : Prop :=
  lost ∨ (s.handled.length = s.responses.length ∧
      ∃ e, s.handled.getLast? = some e ∧ keepsAlive server.order e.1 = false) ∨
    ∃ m, ms[s.handled.length]? = some m ∧ find_resource server (m.request m.text) = none

/-- What holds in each phase. -/
def InPhase (lost : Prop) (s : Connection) : Phase → Prop
  | .header => Reading server ms s ∧ endOf crlf2 s.request.content.content = none ∧
      s.request = { content := { content := s.request.content.content, pos := 0 } }
  | .content need => Reading server ms s ∧ 0 < need ∧ ∃ m, ms[s.responses.length]? = some m ∧
      s.request = m.request s.request.content.content ∧
        s.request.content.content.length + need = m.text.length
  | .sending text => s.pos = (texts ms (s.responses.length + 1)).length ∧
      s.pos ≤ s.stream.length ∧ ∃ before, s.handled = before ++ [(s.request, text)] ∧
        before.length = s.responses.length ∧ ∀ e ∈ before, keepsAlive server.order e.1 = true
  | .closed => s.responses.length ≤ s.handled.length ∧
      s.handled.length ≤ s.responses.length + 1 ∧
        (∀ e ∈ s.handled.dropLast, keepsAlive server.order e.1 = true) ∧ Reason server ms lost s
  | .looping => False

/-- The invariant. `lost` says whether a timeout, an error or the client has ended the
connection. -/
structure Inv (lost : Prop) (s : Connection) : Prop where
  core : Core server write ms s
  phase : InPhase server ms lost s s.phase

variable {server write ms}

/-! ### The request is complete -/

theorem inv_handle {lost : Prop} {s : Connection} {m : Message} (hcore : Core server write ms s)
    (hanswered : s.handled.length = s.responses.length)
    (hkeeps : ∀ e ∈ s.handled, keepsAlive server.order e.1 = true)
    (hm : ms[s.responses.length]? = some m) (hrequest : s.request = m.request m.text)
    (hpos : s.pos = (texts ms (s.responses.length + 1)).length) (hle : s.pos ≤ s.stream.length) :
    Inv server write ms lost (s.handle server write) := by
  unfold Connection.handle
  cases hfind : find_resource server s.request with
  | none =>
      refine ⟨⟨hcore.stream, hcore.requests, hcore.written, hcore.responses, hcore.arrived⟩, ?_, ?_, ?_, ?_⟩
      · exact hanswered.ge
      · show s.handled.length ≤ s.responses.length + 1
        omega
      · exact fun e he => hkeeps e (List.mem_of_mem_dropLast he)
      · refine .inr (.inr ⟨m, ?_, ?_⟩)
        · rw [hanswered]
          exact hm
        · rw [← hrequest]
          exact hfind
  | some found =>
      obtain ⟨handler, groups⟩ := found
      refine ⟨⟨?_, ?_, ?_, ?_, ?_⟩, hpos, hle, s.handled, rfl, hanswered, hkeeps⟩
      · show s.stream <+: texts ms ((s.handled ++ [_]).length + 1)
        rw [List.length_append]
        exact hcore.stream.trans (texts_begins ms _)
      · show (s.handled ++ [_]).map Prod.fst = (ms.take (s.handled ++ [_]).length).map _
        rw [List.map_append, hcore.requests, List.length_append, List.length_singleton,
          List.take_add_one, List.map_append, hanswered, hm, hrequest]
        rfl
      · intro e he
        rcases List.mem_append.mp he with he | he
        · exact hcore.written e he
        · rw [List.mem_singleton.mp he]
          exact ⟨s.steps, handler, groups, hfind, rfl⟩
      · show s.responses = ((s.handled ++ [_]).take s.responses.length).map Prod.snd
        rw [List.take_append_of_le_length hanswered.ge]
        exact hcore.responses
      · show (texts ms (s.handled ++ [_]).length).length ≤ s.stream.length
        rw [List.length_append, List.length_singleton, hanswered, ← hpos]
        exact hle

/-! ### Reads -/

/-- A read takes the next bytes of the stream. -/
theorem reading_fill {s : Connection} (h : Reading server ms s) (n : Nat) :
    Reading server ms (s.fill ((s.stream.drop s.pos).take n)) := by
  obtain ⟨rest, hrest⟩ := h.buffer
  have hdrop : s.stream.drop s.pos = rest := by
    rw [← hrest, h.pos, ← List.length_append, List.drop_left]
  refine ⟨h.answered, h.keeps, ?_, ?_⟩
  · show texts ms s.responses.length ++ (s.request.content.content ++ _) <+: s.stream
    rw [hdrop, ← List.append_assoc, ← hrest]
    exact (List.prefix_append_right_inj _).mpr (List.take_prefix n rest)
  · show s.pos + _ = _ + (s.request.content.content ++ _).length
    rw [h.pos, List.length_append, Nat.add_assoc]
    rfl

/-- What was read is the beginning of the next request, where there is one. -/
theorem Reading.begins {s : Connection} (h : Reading server ms s) (hcore : Core server write ms s) :
    s.request.content.content <+: ms[s.responses.length]?.elim [] Message.text := by
  have hbegin := h.buffer.trans hcore.stream
  rw [h.answered, texts_succ] at hbegin
  exact (List.prefix_append_right_inj _).mp hbegin

/-- When all of the request was read, it is handled. -/
theorem inv_handle_reading {lost : Prop} {s : Connection} {m : Message}
    (hcore : Core server write ms s) (hreading : Reading server ms s)
    (hm : ms[s.responses.length]? = some m) (hrequest : s.request = m.request m.text) :
    Inv server write ms lost (s.handle server write) := by
  have hcontent : s.request.content.content = m.text := by
    rw [hrequest]
    rfl
  have hpos : s.pos = (texts ms (s.responses.length + 1)).length := by
    rw [hreading.pos, texts_succ, hm, List.length_append, hcontent]
    rfl
  refine inv_handle hcore hreading.answered hreading.keeps hm hrequest hpos ?_
  have hle := hreading.buffer.length_le
  rw [List.length_append] at hle
  rw [hreading.pos]
  exact hle

/-- The header is there. -/
theorem inv_parsed {lost : Prop} {s : Connection} {m : Message} (hframed : Framed m)
    (hcore : Core server write ms s) (hreading : Reading server ms s)
    (hm : ms[s.responses.length]? = some m)
    (hrequest : s.request = { content := { content := s.request.content.content, pos := 0 } })
    (hhead : m.head.length ≤ s.request.content.content.length) :
    Inv server write ms lost (s.parsed server write m.head.length) := by
  have hbegin := hreading.begins hcore
  rw [hm] at hbegin
  have hbegin' : s.request.content.content <+: m.head ++ m.content := hbegin
  obtain ⟨rest, hbuffer⟩ : ∃ rest, s.request.content.content = m.head ++ rest := by
    obtain ⟨rest, hrest⟩ := List.prefix_of_prefix_length_le (List.prefix_append _ _) hbegin' hhead
    exact ⟨rest, hrest.symm⟩
  obtain ⟨missing, hmissing⟩ : ∃ missing, rest ++ missing = m.content := by
    rw [hbuffer] at hbegin'
    exact (List.prefix_append_right_inj _).mp hbegin'
  have hsize : s.request.content.content.length = m.head.length + rest.length := by
    rw [hbuffer, List.length_append]
  have hcontent : m.content.length = rest.length + missing.length := by
    rw [← hmissing, List.length_append]
  have hparse : parse_request (s.request.content.content.length + 1) s.request
      = some (true, m.request s.request.content.content) := by
    have hfields := (text_ne_nil m).2
    rw [hrequest, hbuffer]
    exact parse_message m rest _ (by rw [List.length_append]; omega)
  -- The request with its header, whose content is read next.
  let s' : Connection := { s with request := m.request s.request.content.content }
  have hcore' : Core server write ms s' := ⟨hcore.stream, hcore.requests, hcore.written, hcore.responses, hcore.arrived⟩
  have hreading' : Reading server ms s' :=
    ⟨hreading.answered, hreading.keeps, hreading.buffer, hreading.pos⟩
  have hwhole : missing = [] → Inv server write ms lost (s'.handle server write) := by
    intro hnil
    refine inv_handle_reading hcore' hreading' hm ?_
    show m.request s.request.content.content = m.request m.text
    rw [hbuffer, Message.text, ← hmissing, hnil, List.append_nil]
  unfold Connection.parsed
  dsimp only
  rw [hparse]
  dsimp only
  cases hfind : (m.request s.request.content.content).find server.order "Content-Length" with
  | none =>
      refine hwhole ?_
      have hempty := hframed.empty (Request.not_of_find_none hfind)
      rw [← hmissing] at hempty
      exact (List.append_eq_nil_iff.mp hempty).2
  | some it =>
      dsimp only
      obtain ⟨hmem, hname⟩ := Request.mem_of_find hfind
      rw [hframed.length it hmem hname]
      dsimp only
      by_cases hmore : s.request.content.content.length - m.head.length < m.content.length
      · rw [if_pos hmore]
        refine ⟨⟨hcore.stream, hcore.requests, hcore.written, hcore.responses, hcore.arrived⟩,
          ⟨hreading.answered, hreading.keeps, hreading.buffer, hreading.pos⟩, ?_, m, hm, rfl, ?_⟩
        · omega
        · show s.request.content.content.length + _ = (m.head ++ m.content).length
          rw [List.length_append]
          omega
      · rw [if_neg hmore]
        exact hwhole (List.eq_nil_of_length_eq_zero (by omega))

/-- A completion of a read. -/
theorem inv_read (hms : ∀ m ∈ ms, Framed m) {lost : Prop} {s : Connection}
    (h : Inv server write ms lost s) (n : Nat) : Inv server write ms lost (s.read server write n) := by
  have hphase := h.phase
  by_cases heq : s.phase = .header
  · rw [heq] at hphase
    obtain ⟨hreading, -, hrequest⟩ := hphase
    let s' := s.fill ((s.stream.drop s.pos).take n)
    have hcore' : Core server write ms s' :=
      ⟨h.core.stream, h.core.requests, h.core.written, h.core.responses, h.core.arrived⟩
    have hreading' : Reading server ms s' := reading_fill hreading n
    have hrequest' : s'.request = { content := { content := s'.request.content.content, pos := 0 } } := by
      show ({ s.request with content := _ } : Request) = _
      rw [hrequest]
      rfl
    have hbegin := hreading'.begins hcore'
    rw [Connection.read_header server write heq]
    show Inv server write ms lost
      ((endOf crlf2 s'.request.content.content).elim s' (s'.parsed server write))
    cases hm : ms[s'.responses.length]? with
    | none =>
        -- There are no more requests, so there is nothing to read.
        rw [hm] at hbegin
        have hempty : endOf crlf2 s'.request.content.content = none := by
          rw [List.prefix_nil.mp hbegin]
          rfl
        rw [hempty, Option.elim_none]
        refine ⟨hcore', ?_⟩
        rw [show s'.phase = .header from heq]
        exact ⟨hreading', hempty, hrequest'⟩
    | some m =>
        rw [hm] at hbegin
        have hend := endOf_of_prefix hbegin m.endOf_text
        rw [hend]
        by_cases hhead : m.head.length ≤ s'.request.content.content.length
        · rw [if_pos hhead, Option.elim_some]
          exact inv_parsed (hms m (List.mem_of_getElem? hm)) hcore' hreading' hm hrequest' hhead
        · rw [if_neg hhead] at hend ⊢
          rw [Option.elim_none]
          refine ⟨hcore', ?_⟩
          rw [show s'.phase = .header from heq]
          exact ⟨hreading', hend, hrequest'⟩
  unfold Connection.read
  split
  · rename_i hheader
    exact absurd hheader heq
  · rename_i need heq
    rw [heq] at hphase
    obtain ⟨hreading, hneed, m, hm, hrequest, hlength⟩ := hphase
    let bytes := (s.stream.drop s.pos).take (min n need)
    let s' := s.fill bytes
    have hcore' : Core server write ms s' :=
      ⟨h.core.stream, h.core.requests, h.core.written, h.core.responses, h.core.arrived⟩
    have hreading' : Reading server ms s' := reading_fill hreading (min n need)
    have hrequest' : s'.request = m.request s'.request.content.content := by
      show ({ s.request with content := _ } : Request) = _
      rw [hrequest]
      rfl
    have hlength' : s'.request.content.content.length
        = s.request.content.content.length + bytes.length := List.length_append
    have hbytes : bytes.length ≤ need :=
      (List.length_take_le _ _).trans (Nat.min_le_right n need)
    show Inv server write ms lost (if bytes.length < need
      then { s' with phase := .content (need - bytes.length) } else s'.handle server write)
    by_cases hmore : bytes.length < need
    · rw [if_pos hmore]
      refine ⟨⟨hcore'.stream, hcore'.requests, hcore'.written, hcore'.responses, hcore'.arrived⟩,
        ⟨hreading'.answered, hreading'.keeps, hreading'.buffer, hreading'.pos⟩, ?_, m, hm, hrequest', ?_⟩
      · omega
      · show s'.request.content.content.length + (need - bytes.length) = _
        omega
    · rw [if_neg hmore]
      have hbegin := hreading'.begins hcore'
      rw [show ms[s'.responses.length]? = some m from hm] at hbegin
      have hwhole : s'.request.content.content = m.text :=
        List.IsPrefix.eq_of_length hbegin (by show _ = m.text.length; omega)
      refine inv_handle_reading hcore' hreading' hm ?_
      rw [hrequest', hwhole]
  · exact h

/-! ### Sends -/

/-- The end of a send. -/
theorem inv_sent {lost : Prop} {s : Connection} (h : Inv server write ms lost s) :
    Inv server write ms lost (s.sent server) := by
  have hphase := h.phase
  unfold Connection.sent
  split
  · rename_i text heq
    rw [heq] at hphase
    obtain ⟨hpos, hle, before, hhandled, hlength, hkeeps⟩ := hphase
    have hcount : s.handled.length = s.responses.length + 1 := by
      rw [hhandled, List.length_append, hlength]
      rfl
    have hstream : texts ms (s.responses.length + 1) <+: s.stream := by
      refine List.prefix_of_prefix_length_le ?_ h.core.stream (by omega)
      rw [hcount]
      exact texts_begins ms _
    have hlast : s.handled[s.responses.length]? = some (s.request, text) := by
      rw [hhandled, ← hlength]
      exact List.getElem?_concat_length
    have hresponses : s.responses ++ [text]
        = (s.handled.take (s.responses ++ [text]).length).map Prod.snd := by
      rw [List.length_append, List.length_singleton, List.take_add_one, List.map_append,
        ← h.core.responses, hlast]
      rfl
    have hcore : ∀ (request : Request) (phase : Phase), Core server write ms
        { s with responses := s.responses ++ [text], request, phase } := by
      intro request phase
      exact ⟨h.core.stream, h.core.requests, h.core.written, hresponses, h.core.arrived⟩
    dsimp only
    by_cases hkeep : keepsAlive server.order s.request = true
    · rw [if_pos hkeep]
      refine ⟨hcore _ _, ⟨?_, ?_, ?_, ?_⟩, rfl, rfl⟩
      · show s.handled.length = (s.responses ++ [text]).length
        rw [hcount, List.length_append]
        rfl
      · intro e he
        rw [hhandled] at he
        rcases List.mem_append.mp he with he | he
        · exact hkeeps e he
        · rw [List.mem_singleton.mp he]
          exact hkeep
      · show texts ms (s.responses ++ [text]).length ++ [] <+: s.stream
        rw [List.append_nil, List.length_append, List.length_singleton]
        exact hstream
      · show s.pos = (texts ms (s.responses ++ [text]).length).length + 0
        rw [List.length_append, List.length_singleton, hpos]
        rfl
    · rw [if_neg hkeep]
      refine ⟨hcore _ _, ?_, ?_, ?_, .inr (.inl ⟨?_, (s.request, text), ?_, ?_⟩)⟩
      · show (s.responses ++ [text]).length ≤ s.handled.length
        rw [List.length_append, hcount]
        rfl
      · show s.handled.length ≤ (s.responses ++ [text]).length + 1
        rw [List.length_append, hcount, List.length_singleton]
        omega
      · show ∀ e ∈ s.handled.dropLast, _
        rw [hhandled, List.dropLast_concat]
        exact hkeeps
      · show s.handled.length = (s.responses ++ [text]).length
        rw [hcount, List.length_append]
        rfl
      · show s.handled.getLast? = _
        rw [hhandled, List.getLast?_concat]
      · exact Bool.not_eq_true _ ▸ hkeep
  · exact h

/-! ### Steps and runs -/

/-- Neither the clock nor more bytes from the client change the phase. -/
theorem inv_arrive {lost : Prop} {s : Connection} (h : Inv server write ms lost s)
    (bytes : List Char) (hstream : s.stream ++ bytes <+: texts ms (s.handled.length + 1))
    (steps : Nat) :
    Inv server write ms lost { s with stream := s.stream ++ bytes, steps } := by
  have hphase := h.phase
  have hreading (phase : Phase) :
      Reading server ms s →
        Reading server ms { s with stream := s.stream ++ bytes, steps, phase } :=
    fun h => ⟨h.answered, h.keeps, h.buffer.trans (List.prefix_append _ _), h.pos⟩
  have harrived : (texts ms s.handled.length).length ≤ (s.stream ++ bytes).length := by
    rw [List.length_append]
    exact Nat.le_add_right_of_le h.core.arrived
  refine ⟨⟨hstream, h.core.requests, h.core.written, h.core.responses, harrived⟩, ?_⟩
  show InPhase server ms lost _ s.phase
  cases hp : s.phase with
  | header =>
      rw [hp] at hphase
      exact ⟨hreading _ hphase.1, hphase.2⟩
  | content need =>
      rw [hp] at hphase
      exact ⟨hreading _ hphase.1, hphase.2⟩
  | sending text =>
      rw [hp] at hphase
      refine ⟨hphase.1, ?_, hphase.2.2⟩
      show s.pos ≤ (s.stream ++ bytes).length
      rw [List.length_append]
      exact Nat.le_add_right_of_le hphase.2.1
  | closed =>
      rw [hp] at hphase
      exact hphase
  | looping =>
      rw [hp] at hphase
      exact hphase

/-- The connection is lost in any phase. -/
theorem inv_lost {lost : Prop} {s : Connection} (h : Inv server write ms lost s) (hlost : lost) :
    Inv server write ms lost { s with phase := .closed } := by
  have hphase := h.phase
  have hreading : Reading server ms s →
      InPhase server ms lost { s with phase := .closed } .closed := fun h =>
    ⟨h.answered.ge, h.answered.le.trans (Nat.le_succ _),
      fun e he => h.keeps e (List.mem_of_mem_dropLast he), .inl hlost⟩
  refine ⟨⟨h.core.stream, h.core.requests, h.core.written, h.core.responses, h.core.arrived⟩, ?_⟩
  cases hp : s.phase with
  | header =>
      rw [hp] at hphase
      exact hreading hphase.1
  | content need =>
      rw [hp] at hphase
      exact hreading hphase.1
  | sending text =>
      rw [hp] at hphase
      obtain ⟨-, -, before, hhandled, hlength, hkeeps⟩ := hphase
      refine ⟨?_, ?_, ?_, .inl hlost⟩
      · show s.responses.length ≤ s.handled.length
        rw [hhandled, List.length_append]
        omega
      · show s.handled.length ≤ s.responses.length + 1
        rw [hhandled, List.length_append, hlength]
        exact Nat.le_refl _
      · show ∀ e ∈ s.handled.dropLast, _
        rw [hhandled, List.dropLast_concat]
        exact hkeeps
  | closed =>
      rw [hp] at hphase
      exact ⟨hphase.1, hphase.2.1, hphase.2.2.1, .inl hlost⟩
  | looping =>
      rw [hp] at hphase
      exact hphase.elim

/-- A reason stays one. -/
theorem Inv.mono {lost lost' : Prop} {s : Connection} (h : Inv server write ms lost s)
    (himp : lost → lost') : Inv server write ms lost' s := by
  have hphase := h.phase
  refine ⟨h.core, ?_⟩
  cases hp : s.phase with
  | closed =>
      rw [hp] at hphase
      exact ⟨hphase.1, hphase.2.1, hphase.2.2.1, hphase.2.2.2.imp_left himp⟩
  | _ =>
      rw [hp] at hphase
      exact hphase

/-- One step. -/
theorem inv_step (hms : ∀ m ∈ ms, Framed m) {lost : Prop} {s : Connection}
    (h : Inv server write ms lost s) (e : Http.Event) (hclient : Waits ms s e) :
    Inv server write ms (lost ∨ e = .lost) (s.step server write e) := by
  have hcount : Inv server write ms lost { s with steps := s.steps + 1 } := by
    have harrive := inv_arrive h [] (by rw [List.append_nil]; exact h.core.stream) (s.steps + 1)
    rw [List.append_nil] at harrive
    exact harrive
  cases e with
  | arrive bytes => exact (inv_arrive h bytes hclient (s.steps + 1)).mono .inl
  | read n => exact (inv_read hms hcount n).mono .inl
  | sent => exact (inv_sent hcount).mono .inl
  | lost =>
      show Inv server write ms _ (if s.phase = .looping then _ else _)
      split
      · exact hcount.mono .inl
      · exact inv_lost (hcount.mono .inl) (.inr rfl)

/-- A new connection. -/
theorem inv_start : Inv server write ms False {} := by
  refine ⟨⟨List.nil_prefix, rfl, fun e he => absurd he List.not_mem_nil, rfl, Nat.le_refl 0⟩,
    ⟨rfl, ?_, ?_, ?_⟩, rfl, rfl⟩
  · exact fun e he => absurd he List.not_mem_nil
  · exact List.nil_prefix
  · rfl

/-- A run. -/
theorem inv_exec (hms : ∀ m ∈ ms, Framed m) (events : List Http.Event)
    (hclient : Meets (Connection.step server write) (Waits ms) {} events) :
    Inv server write ms (Http.Event.lost ∈ events) (exec (Connection.step server write) {} events) := by
  let I (taken : List Http.Event) (s : Connection) : Prop := Inv server write ms (Http.Event.lost ∈ taken) s
  have hstart : I [] {} := inv_start.mono False.elim
  have hstep : ∀ taken s, ∀ e ∈ events, I taken s → Waits ms s e →
      I (taken ++ [e]) (s.step server write e) := by
    intro taken s e _ h hclient
    refine (inv_step hms h e hclient).mono ?_
    rintro (h | rfl)
    · exact List.mem_append_left _ h
    · exact List.mem_append_right _ List.mem_cons_self
  exact Run.exec_history {} events hstep hstart hclient

/-- When all that was sent are whole requests, and all was read, they were handled. -/
theorem handled_of_read {lost : Prop} {s : Connection} (h : Inv server write ms lost s)
    (hopen : s.phase ≠ .closed) {n : Nat} (hn : n ≤ ms.length) (hstream : s.stream = texts ms n)
    (hread : s.pos = s.stream.length) : s.handled.length = n := by
  have hhandled : s.handled.length ≤ ms.length := by
    have hlength := congrArg List.length h.core.requests
    rw [List.length_map, List.length_map, List.length_take] at hlength
    omega
  have hnext : (texts ms n).length ≤ (texts ms (s.handled.length + 1)).length := by
    rw [← hstream]
    exact h.core.stream.length_le
  rw [hstream] at hread
  -- Between the last response and the end of the stream there is at most one request.
  have hreading : Reading server ms s → n = s.responses.length ∨
      n = s.responses.length + 1 ∧ ∃ m, ms[s.responses.length]? = some m ∧
        texts ms (s.responses.length + 1) = texts ms s.responses.length ++ m.text := by
    intro hreading
    rw [hreading.answered] at hnext
    have hk : s.responses.length ≤ ms.length := by
      rw [← hreading.answered]
      exact hhandled
    have hge : s.responses.length ≤ n := by
      by_contra hlt
      have := length_texts_lt (Nat.lt_of_not_le hlt) hk
      have := hreading.pos
      omega
    by_cases heq : n = s.responses.length
    · exact .inl heq
    · have hle : n ≤ s.responses.length + 1 := by
        by_contra hlt
        have := length_texts_lt (Nat.lt_of_not_le hlt) hn
        omega
      obtain ⟨m, hm⟩ : ∃ m, ms[s.responses.length]? = some m := ⟨_, List.getElem?_eq_getElem (by omega)⟩
      refine .inr ⟨by omega, m, hm, ?_⟩
      rw [texts_succ, hm]
      rfl
  have hphase := h.phase
  cases hp : s.phase with
  | header =>
      rw [hp] at hphase
      obtain ⟨hr, hnone, -⟩ := hphase
      rcases hreading hr with rfl | ⟨rfl, m, hm, htext⟩
      · exact hr.answered
      · -- The whole request is in the buffer, but its delimiter is not.
        have hbuffer : s.request.content.content = m.text := by
          have hwhole : texts ms s.responses.length ++ s.request.content.content = texts ms s.responses.length ++ m.text := by
            rw [← htext, ← hstream]
            refine hr.buffer.eq_of_length ?_
            rw [List.length_append, hstream, ← hread, hr.pos]
          exact List.append_cancel_left hwhole
        rw [hbuffer, m.endOf_text] at hnone
        exact absurd hnone (by simp)
  | content need =>
      rw [hp] at hphase
      obtain ⟨hr, hneed, m', hm', -, hlength⟩ := hphase
      rcases hreading hr with rfl | ⟨rfl, m, hm, htext⟩
      · exact hr.answered
      · obtain rfl : m = m' := Option.some.inj (hm.symm.trans hm')
        have hpos := hr.pos
        rw [htext, List.length_append] at hread
        omega
  | sending text =>
      rw [hp] at hphase
      obtain ⟨hpos, -, before, hbefore, hlength, -⟩ := hphase
      have hcount : s.handled.length = s.responses.length + 1 := by
        rw [hbefore, List.length_append, hlength]
        rfl
      rcases Nat.lt_trichotomy n (s.responses.length + 1) with hlt | rfl | hlt
      · have := length_texts_lt hlt (hcount ▸ hhandled)
        omega
      · exact hcount
      · have := length_texts_lt hlt hn
        omega
  | closed => exact absurd hp hopen
  | looping =>
      rw [hp] at hphase
      exact hphase.elim

end

/-- For every client that waits for its responses, and all pieces in which its requests come and
are read: the requests that were handled are its first ones, in their order and with what it has
sent, and the responses are what their handlers wrote. None is lost: once all bytes of a request
were read it was handled. Only a failure, a request that asks for it or one without a handler
closes the connection. -/
theorem requests_in_order {η : Type} (server : Server η)
    (write : Nat → η → Request → List String → String) (ms : List Message)
    (hms : ∀ m ∈ ms, Framed m) (events : List Http.Event)
    (hclient : Meets (Connection.step server write) (Waits ms) {} events) :
    let s := exec (Connection.step server write) {} events
    s.handled.map Prod.fst = (ms.take s.handled.length).map (fun m => m.request m.text) ∧
      (∀ e ∈ s.handled, ∃ now handler groups,
        find_resource server e.1 = some (handler, groups) ∧ e.2 = write now handler e.1 groups) ∧
      s.responses = (s.handled.take s.responses.length).map Prod.snd ∧
      s.handled.length ≤ s.responses.length + 1 ∧
      (∀ e ∈ s.handled.dropLast, keepsAlive server.order e.1 = true) ∧
      (s.phase ≠ .closed → ∀ n ≤ ms.length, s.stream = texts ms n → s.pos = s.stream.length →
        s.handled.length = n) ∧
      s.phase ≠ .looping ∧ (s.phase = .closed → Reason server ms (Http.Event.lost ∈ events) s) := by
  intro s
  have h : Inv server write ms (Http.Event.lost ∈ events) s := inv_exec hms events hclient
  have hphase := h.phase
  have hlooping : s.phase ≠ .looping := by
    intro hp
    rw [hp] at hphase
    exact hphase
  have hclosed : s.phase = .closed → Reason server ms (Http.Event.lost ∈ events) s := by
    intro hp
    rw [hp] at hphase
    exact hphase.2.2.2
  have hlast : s.handled.length ≤ s.responses.length + 1 ∧
      ∀ e ∈ s.handled.dropLast, keepsAlive server.order e.1 = true := by
    have hreading : Reading server ms s → s.handled.length ≤ s.responses.length + 1 ∧
        ∀ e ∈ s.handled.dropLast, keepsAlive server.order e.1 = true := fun hr =>
      ⟨hr.answered.le.trans (Nat.le_succ _), fun e he => hr.keeps e (List.mem_of_mem_dropLast he)⟩
    cases hp : s.phase with
    | header =>
        rw [hp] at hphase
        exact hreading hphase.1
    | content need =>
        rw [hp] at hphase
        exact hreading hphase.1
    | sending text =>
        rw [hp] at hphase
        obtain ⟨-, -, before, hbefore, hlength, hkeeps⟩ := hphase
        rw [hbefore, List.dropLast_concat, List.length_append, hlength]
        exact ⟨Nat.le_refl _, hkeeps⟩
    | closed =>
        rw [hp] at hphase
        exact ⟨hphase.2.1, hphase.2.2.1⟩
    | looping => exact absurd hp hlooping
  exact ⟨h.core.requests, h.core.written, h.core.responses, hlast.1, hlast.2,
    fun hopen n hn hstream hread => handled_of_read h hopen hn hstream hread, hlooping, hclosed⟩

theorem words_get : Words "GET" "/a" [("Host", "h")] := ⟨by decide, by decide, by decide⟩

theorem words_post : Words "POST" "/b" [("content-length", "5")] :=
  ⟨by decide, by decide, by decide⟩

/-- A request without a content, and one with a content of five bytes. -/
def someMessages : List Message :=
  [.ofWords words_get [], .ofWords words_post "hello".toList]

theorem framed_someMessages : ∀ m ∈ someMessages, Framed m := by decide

/-- The first request comes in two pieces, of which the first ends within the delimiter, and the
content of the second one is read with two reads. -/
def someEvents : List Http.Event :=
  [.arrive "GET /a HTTP/1.1\r\nHost: h\r\n\r".toList, .read 100, .arrive "\n".toList, .read 100,
    .sent, .arrive "POST /b HTTP/1.1\r\ncontent-length: 5\r\n\r\nhello".toList, .read 42, .read 100,
    .sent]

theorem requests_in_order_two :
    (exec (Connection.step { default_resource := [("GET", ()), ("POST", ())] }
      (fun _ _ request _ => request.path)) {} someEvents).handled.map Prod.fst
        = someMessages.map (fun m => m.request m.text) := by
  let server : Server Unit := { default_resource := [("GET", ()), ("POST", ())] }
  obtain ⟨hrequests, -, -, -, -, hread, -⟩ := requests_in_order server
    (fun _ _ request _ => request.path) someMessages framed_someMessages someEvents (by decide)
  rw [hrequests, hread (by decide) 2 (by decide) (by decide) (by decide)]
  rfl

end WatchedAgent.Proofs.Connections
