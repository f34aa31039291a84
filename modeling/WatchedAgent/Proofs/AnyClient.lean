import WatchedAgent.Lib.Run
import WatchedAgent.Proofs.RequestText

/-!
# `WatchedAgent.Proofs.AnyClient`: connections of clients that keep to nothing

A client may send what it likes: several requests at once, headers that say nothing, or no
request at all. What a read brings beyond the content of a request stays in the buffer of that
request, and is gone with it.

* `Any`: the bytes that were read are those of the requests that were handled, and then those of
  the buffer.
* `requests_of_any_client`: so the requests that are handled are disjoint parts of what was sent.
-/

set_option autoImplicit false

namespace WatchedAgent.Proofs.AnyClient

open WatchedAgent.Lib
open WatchedAgent.Lib.Delimited
open WatchedAgent.Lib.Run (exec)
open WatchedAgent.Model
open WatchedAgent.Model.Http
open WatchedAgent.Proofs.RequestText

/-! ### The invariant -/

/-- The request was parsed from the first bytes of its buffer, of which the header takes `n`. -/
structure Parsed (request : Request) (n : Nat) : Prop where
  header : endOf crlf2 request.content.content = some n
  parsed : ∃ pre, pre <+: request.content.content ∧ n ≤ pre.length ∧
    parse_request (pre.length + 1) { content := { content := pre, pos := 0 } }
      = some (true, { request with content := { request.content with content := pre } })

/-- The buffer has the header, and as many bytes behind it as the header says. -/
def Complete (order : MultimapOrder) (request : Request) : Prop :=
  ∃ n, Parsed request n ∧ ∀ it, request.find order "Content-Length" = some it →
    ∃ content_length, stoull it.2 = some content_length ∧
      n + content_length ≤ request.content.content.length

/-- The bytes of the requests that were handled. -/
def frames (s : Connection) : List Char := s.handled.flatMap (fun e => e.1.content.content)

/-- What holds in each phase, for any client. -/
def AnyPhase (order : MultimapOrder) (s : Connection) : Phase → Prop
  | .header => s.stream.take s.pos = frames s ++ s.request.content.content ∧
      endOf crlf2 s.request.content.content = none ∧ s.handled.length = s.responses.length ∧
        s.request = { content := { content := s.request.content.content, pos := 0 } }
  | .content need => s.stream.take s.pos = frames s ++ s.request.content.content ∧ 0 < need ∧
      s.handled.length = s.responses.length ∧ ∃ n, Parsed s.request n ∧
        ∀ it, s.request.find order "Content-Length" = some it → ∃ content_length,
          stoull it.2 = some content_length ∧
            n + content_length = s.request.content.content.length + need
  | .sending _ => s.stream.take s.pos = frames s ∧ s.handled.length = s.responses.length + 1
  | .closed => frames s <+: s.stream.take s.pos ∧ s.responses.length ≤ s.handled.length ∧
      s.handled.length ≤ s.responses.length + 1
  | .looping => False

/-- The invariant for any client. -/
structure Any (order : MultimapOrder) (s : Connection) : Prop where
  pos : s.pos ≤ s.stream.length
  complete : ∀ e ∈ s.handled, Complete order e.1
  phase : AnyPhase order s s.phase

section
variable {η : Type} (server : Server η) (write : Nat → η → Request → List String → String)

/-- A complete request is handled. -/
theorem any_handle {s : Connection} (hpos : s.pos ≤ s.stream.length)
    (hcomplete : ∀ e ∈ s.handled, Complete server.order e.1)
    (hrequest : Complete server.order s.request)
    (hanswered : s.handled.length = s.responses.length)
    (hframes : s.stream.take s.pos = frames s ++ s.request.content.content) :
    Any server.order (s.handle server write) := by
  unfold Connection.handle
  split
  · refine ⟨hpos, hcomplete, ?_, hanswered.ge, hanswered.le.trans (Nat.le_succ _)⟩
    show frames s <+: s.stream.take s.pos
    rw [hframes]
    exact List.prefix_append _ _
  · refine ⟨hpos, fun e he => ?_, ?_, ?_⟩
    · rcases List.mem_append.mp he with he | he
      · exact hcomplete e he
      · rw [List.mem_singleton.mp he]
        exact hrequest
    · show s.stream.take s.pos = (s.handled ++ [_]).flatMap _
      rw [hframes, List.flatMap_append]
      simp [frames]
    · show (s.handled ++ [_]).length = s.responses.length + 1
      rw [List.length_append, hanswered]
      rfl

/-- A read takes bytes that follow those that were read. -/
theorem take_fill {s : Connection} (n : Nat)
    (hframes : s.stream.take s.pos = frames s ++ s.request.content.content) :
    let s' := s.fill ((s.stream.drop s.pos).take n)
    s'.stream.take s'.pos = frames s' ++ s'.request.content.content := by
  let bytes := (s.stream.drop s.pos).take n
  show s.stream.take (s.pos + bytes.length) = frames s ++ (s.request.content.content ++ bytes)
  have hbytes : (s.stream.drop s.pos).take bytes.length = bytes := by
    show (s.stream.drop s.pos).take ((s.stream.drop s.pos).take n).length = _
    rw [List.length_take, ← List.take_take, List.take_length]
  rw [List.take_add, hbytes, hframes, List.append_assoc]

theorem pos_fill {s : Connection} (hpos : s.pos ≤ s.stream.length) (n : Nat) :
    (s.fill ((s.stream.drop s.pos).take n)).pos ≤ s.stream.length := by
  show s.pos + ((s.stream.drop s.pos).take n).length ≤ s.stream.length
  rw [List.length_take, List.length_drop]
  omega

/-- The header is there. The parsing ends, with one result or the other. -/
theorem any_parsed {s : Connection} (hpos : s.pos ≤ s.stream.length)
    (hcomplete : ∀ e ∈ s.handled, Complete server.order e.1)
    (hanswered : s.handled.length = s.responses.length)
    (hframes : s.stream.take s.pos = frames s ++ s.request.content.content)
    (hrequest : s.request = { content := { content := s.request.content.content, pos := 0 } })
    {n : Nat} (hend : endOf crlf2 s.request.content.content = some n) :
    Any server.order (s.parsed server write n) := by
  obtain ⟨ok, request, hparse, hbuffer, -⟩ := parse_request_within hend (Nat.lt_succ_self _)
  rw [← hrequest] at hparse
  have hclosed : ∀ request : Request, Any server.order { s with request, phase := .closed } := by
    refine fun _ => ⟨hpos, hcomplete, ?_, hanswered.ge, hanswered.le.trans (Nat.le_succ _)⟩
    show frames s <+: s.stream.take s.pos
    rw [hframes]
    exact List.prefix_append _ _
  unfold Connection.parsed
  dsimp only
  rw [hparse]
  cases ok with
  | false => exact hclosed request
  | true =>
      have hsame : { request with
          content := { request.content with content := s.request.content.content } } = request := by
        rw [← hbuffer]
      have hparsed : Parsed request n := by
        refine ⟨by rw [hbuffer]; exact hend, s.request.content.content, ?_, endOf_le hend, ?_⟩
        · rw [hbuffer]
        · rw [← hrequest, hparse, hsame]
      have hframes' : s.stream.take s.pos = frames s ++ request.content.content := by
        rw [hbuffer]
        exact hframes
      dsimp only
      cases hfind : request.find server.order "Content-Length" with
      | none =>
          refine any_handle server write hpos hcomplete ⟨n, hparsed, fun it h => ?_⟩ hanswered hframes'
          exact absurd (hfind.symm.trans h) (by simp)
      | some it =>
          dsimp only
          cases hlength : stoull it.2 with
          | none => exact hclosed request
          | some content_length =>
              have hn := endOf_le hend
              dsimp only
              by_cases hmore : s.request.content.content.length - n < content_length
              · rw [if_pos hmore]
                refine ⟨hpos, hcomplete, hframes', by omega, hanswered, n, hparsed, fun it' h => ?_⟩
                refine ⟨content_length, ?_, ?_⟩
                · rw [← Option.some.inj (hfind.symm.trans h)]
                  exact hlength
                · show n + content_length = request.content.content.length + _
                  rw [hbuffer]
                  omega
              · rw [if_neg hmore]
                refine any_handle server write hpos hcomplete ⟨n, hparsed, fun it' h => ?_⟩ hanswered
                  hframes'
                refine ⟨content_length, ?_, ?_⟩
                · rw [← Option.some.inj (hfind.symm.trans h)]
                  exact hlength
                · show n + content_length ≤ request.content.content.length
                  rw [hbuffer]
                  omega

/-- A completion of a read. -/
theorem any_read {s : Connection} (h : Any server.order s) (n : Nat) :
    Any server.order (s.read server write n) := by
  have hphase := h.phase
  by_cases heq : s.phase = .header
  · rw [heq] at hphase
    obtain ⟨hframes, -, hanswered, hrequest⟩ := hphase
    let s' := s.fill ((s.stream.drop s.pos).take n)
    have hrequest' : s'.request = { content := { content := s'.request.content.content, pos := 0 } } := by
      show ({ s.request with content := _ } : Request) = _
      rw [hrequest]
      rfl
    have hpos' : s'.pos ≤ s'.stream.length := pos_fill h.pos n
    have hframes' := take_fill n hframes
    rw [Connection.read_header server write heq]
    show Any server.order
      ((endOf crlf2 s'.request.content.content).elim s' (s'.parsed server write))
    cases hend : endOf crlf2 s'.request.content.content with
    | none =>
        rw [Option.elim_none]
        refine ⟨hpos', h.complete, ?_⟩
        rw [show s'.phase = .header from heq]
        exact ⟨hframes', hend, hanswered, hrequest'⟩
    | some e => exact any_parsed server write hpos' h.complete hanswered hframes' hrequest' hend
  unfold Connection.read
  split
  · rename_i hheader
    exact absurd hheader heq
  · rename_i need heq
    rw [heq] at hphase
    obtain ⟨hframes, hneed, hanswered, e, hparsed, hlength⟩ := hphase
    let bytes := (s.stream.drop s.pos).take (min n need)
    let s' := s.fill bytes
    have hbytes : bytes.length ≤ need := (List.length_take_le _ _).trans (Nat.min_le_right n need)
    have hpos' : s'.pos ≤ s'.stream.length := pos_fill h.pos (min n need)
    have hframes' : s'.stream.take s'.pos = frames s' ++ s'.request.content.content :=
      take_fill (min n need) hframes
    have hparsed' : Parsed s'.request e := by
      obtain ⟨pre, hpre, hle, hparse⟩ := hparsed.parsed
      exact ⟨endOf_append hparsed.header bytes, pre, hpre.trans (List.prefix_append _ _), hle, hparse⟩
    have hsize : s'.request.content.content.length
        = s.request.content.content.length + bytes.length := List.length_append
    show Any server.order
      (if bytes.length < need then { s' with phase := .content (need - bytes.length) }
        else s'.handle server write)
    by_cases hmore : bytes.length < need
    · rw [if_pos hmore]
      refine ⟨hpos', h.complete, hframes', by omega, hanswered, e, hparsed', fun it hit => ?_⟩
      obtain ⟨content_length, hstoull, hsum⟩ := hlength it hit
      refine ⟨content_length, hstoull, ?_⟩
      show e + content_length = s'.request.content.content.length + _
      omega
    · rw [if_neg hmore]
      refine any_handle server write hpos' h.complete ⟨e, hparsed', fun it hit => ?_⟩ hanswered hframes'
      obtain ⟨content_length, hstoull, hsum⟩ := hlength it hit
      refine ⟨content_length, hstoull, ?_⟩
      show e + content_length ≤ s'.request.content.content.length
      omega
  · exact h

/-- The end of a send. -/
theorem any_sent {s : Connection} (h : Any server.order s) : Any server.order (s.sent server) := by
  have hphase := h.phase
  unfold Connection.sent
  split
  · rename_i text heq
    rw [heq] at hphase
    obtain ⟨hframes, hcount⟩ := hphase
    have hanswered : s.handled.length = (s.responses ++ [text]).length := by
      rw [hcount, List.length_append]
      rfl
    dsimp only
    split
    · refine ⟨h.pos, h.complete, ?_, rfl, hanswered, rfl⟩
      show s.stream.take s.pos = frames s ++ []
      rw [hframes, List.append_nil]
    · refine ⟨h.pos, h.complete, ?_, hanswered.ge, hanswered.le.trans (Nat.le_succ _)⟩
      show frames s <+: s.stream.take s.pos
      rw [hframes]
  · exact h

/-- A connection may be closed in any phase. -/
theorem any_closed {s : Connection} (h : Any server.order s) : frames s <+: s.stream.take s.pos ∧
    s.responses.length ≤ s.handled.length ∧ s.handled.length ≤ s.responses.length + 1 := by
  have hphase := h.phase
  cases hp : s.phase with
  | header =>
      rw [hp] at hphase
      obtain ⟨hframes, -, hanswered, -⟩ := hphase
      rw [hframes]
      exact ⟨List.prefix_append _ _, hanswered.ge, hanswered.le.trans (Nat.le_succ _)⟩
  | content need =>
      rw [hp] at hphase
      obtain ⟨hframes, -, hanswered, -⟩ := hphase
      rw [hframes]
      exact ⟨List.prefix_append _ _, hanswered.ge, hanswered.le.trans (Nat.le_succ _)⟩
  | sending text =>
      rw [hp] at hphase
      obtain ⟨hframes, hcount⟩ := hphase
      rw [hframes]
      exact ⟨List.prefix_refl _, by omega, hcount.le⟩
  | closed =>
      rw [hp] at hphase
      exact hphase
  | looping =>
      rw [hp] at hphase
      exact hphase.elim

/-- More bytes from the client. -/
theorem any_arrive {s : Connection} (h : Any server.order s) (bytes : List Char) (steps : Nat) :
    Any server.order { s with stream := s.stream ++ bytes, steps } := by
  have hphase := h.phase
  have htake : (s.stream ++ bytes).take s.pos = s.stream.take s.pos :=
    List.take_append_of_le_length h.pos
  refine ⟨?_, h.complete, ?_⟩
  · show s.pos ≤ (s.stream ++ bytes).length
    rw [List.length_append]
    exact Nat.le_add_right_of_le h.pos
  · show AnyPhase server.order { s with stream := s.stream ++ bytes, steps } s.phase
    cases hp : s.phase with
    | looping =>
        rw [hp] at hphase
        exact hphase
    | closed =>
        rw [hp] at hphase
        exact ⟨htake ▸ hphase.1, hphase.2⟩
    | _ =>
        rw [hp] at hphase
        exact ⟨htake.trans hphase.1, hphase.2⟩

/-- One step. -/
theorem any_step {s : Connection} (h : Any server.order s) (e : Http.Event) :
    Any server.order (s.step server write e) := by
  have hcount : Any server.order { s with steps := s.steps + 1 } := by
    have harrive := any_arrive server h [] (s.steps + 1)
    rw [List.append_nil] at harrive
    exact harrive
  cases e with
  | arrive bytes => exact any_arrive server h bytes (s.steps + 1)
  | read n => exact any_read server write hcount n
  | sent => exact any_sent server hcount
  | lost =>
      show Any server.order (if s.phase = .looping then _ else _)
      split
      · exact hcount
      · have hclosed := any_closed server hcount
        exact ⟨hcount.pos, hcount.complete, hclosed⟩

end

/-- For every client, whatever it sends and in whatever pieces: the bytes of the requests that
were handled are the first ones it has sent, one request after the other, and no byte belongs to
two of them. Each of them has a whole header, from which the server has the request, and at least
as many bytes behind it as the header says. At most one has no response yet, and no header keeps
the server busy forever. -/
theorem requests_of_any_client {η : Type} (server : Server η)
    (write : Nat → η → Request → List String → String) (events : List Http.Event) :
    let s := exec (Connection.step server write) {} events
    frames s <+: s.stream.take s.pos ∧ (∀ e ∈ s.handled, Complete server.order e.1) ∧
      s.responses.length ≤ s.handled.length ∧ s.handled.length ≤ s.responses.length + 1 ∧
      s.phase ≠ .looping := by
  intro s
  have hstart : Any server.order {} :=
    ⟨Nat.le_refl 0, fun e he => absurd he List.not_mem_nil, rfl, rfl, rfl, rfl⟩
  have h : Any server.order s := Run.exec_keeps (I := Any server.order) {} events
    (fun s e _ h => any_step server write h e) hstart
  obtain ⟨hframes, hle, hge⟩ := any_closed server h
  refine ⟨hframes, h.complete, hle, hge, fun hp => ?_⟩
  have hphase := h.phase
  rw [hp] at hphase
  exact hphase

end WatchedAgent.Proofs.AnyClient
