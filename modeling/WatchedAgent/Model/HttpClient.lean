import WatchedAgent.Model.HttpServer

/-!
# `WatchedAgent.Model.HttpClient`: a connection of the client

`ClientBase` of `sws/client_http.hpp`, the other end of `WatchedAgent.Model.HttpServer`. A call of
`request` writes a request, and reads the response: up to the empty line behind its header
(`parse_response_header`), and what is missing of its content. The callback gets the response, and
the connection is free for the next call.

A connection is one `Session` after the other, without a proxy. A failed read or write is the event
`lost`, where the source closes the connection and tries once more with another one. A response
with chunks, or one that goes on until the connection is closed, has the phase `unframed`, since no
handler of the agent writes one. The header has the fields in the order of the lines, which is
that of the multimap for names that are there once.
-/

set_option autoImplicit false

namespace WatchedAgent.Model.Http

open WatchedAgent.Lib
open WatchedAgent.Lib.Delimited
open WatchedAgent.Lib.Text

/-! ### Requests -/

/-- The arguments of `request`. -/
structure Call where
  method : String
  path : String := "/"
  content : List Char := []
  header : List (String × String) := []

/-- `create_request_header`. -/
def create_request_header (host method path : String) (header : List (String × String)) :
    List Char :=
  let corrected_path := if path = "" then "/" else path
  let field (h : String × String) : List Char :=
    h.1.toList ++ ": ".toList ++ h.2.toList ++ "\r\n".toList
  method.toList ++ " ".toList ++ corrected_path.toList ++ " HTTP/1.1\r\n".toList
    ++ ("Host: ".toList ++ host.toList ++ "\r\n".toList) ++ header.flatMap field

/-- What `request` writes. -/
def Call.text (host : String) (call : Call) : List Char :=
  let size := call.content.length
  create_request_header host call.method call.path call.header
    ++ (if 0 < size then "Content-Length: ".toList ++ (toString size).toList ++ "\r\n".toList
      else [])
    ++ "\r\n".toList ++ call.content

/-! ### Responses -/

/-- `class Response`. -/
structure Response where
  http_version : String := ""
  status_code : String := ""
  header : List (String × String) := []
  content : IStream
  deriving DecidableEq

/-- `header.find(name)`. -/
def Response.find (response : Response) (name : String) : Option (String × String) :=
  response.header.find? (fun it => case_insensitive_equal it.1 name)

/-- `content.string()`: what is left of the content. -/
def Response.string (response : Response) : List Char :=
  response.content.content.drop response.content.pos

/-- `parse_response_header`, with at most `n` turns of its loop, which is the one of
`parse_request`. -/
def parse_response_header (n : Nat) (response : Response) : Option Response :=
  let (content, line) := getline response.content ""
  let response := { response with content }
  match find line ' ' 0 with
  | none => some response
  | some version_end =>
      let http_version :=
        if 5 < line.length then part line 5 (posSub (some version_end) 5 line.length)
        else response.http_version
      let status_code :=
        if version_end + 1 < line.length then
          part line (version_end + 1) (line.length - (version_end + 1) - 1)
        else response.status_code
      let (content, line) := getline response.content line
      (readFields n { header := response.header, content } line).map (fun fields =>
        { http_version, status_code, header := fields.header, content := fields.content })

/-! ### The connection -/

/-- What a connection waits for. `failed` is an exception of `stoull`, and `looping` a loop that
does not end. -/
inductive ClientPhase where
  | idle
  | header
  | content (need : Nat)
  | unframed
  | failed
  | closed
  | looping
  deriving DecidableEq

/-- A connection. `stream` is what the server has sent, of which the first `pos` bytes were read.
The callbacks were given `results`. -/
structure ClientConnection where
  stream : List Char := []
  pos : Nat := 0
  sent : List Char := []
  calls : Nat := 0
  response : Response := { content := { content := [], pos := 0 } }
  phase : ClientPhase := .idle
  results : List Response := []

namespace ClientConnection

/-- The next call of a program. A connection that is in use is not given to another call. -/
def request (host : String) (program : List Call) (s : ClientConnection) : ClientConnection :=
  match s.phase, program[s.calls]? with
  | .idle, some call =>
      { s with
        calls := s.calls + 1
        sent := s.sent ++ call.text host
        response := { content := { content := [], pos := 0 } }
        phase := .header }
  | _, _ => s

/-- The callback. -/
def callback (s : ClientConnection) : ClientConnection :=
  { s with results := s.results ++ [s.response], phase := .idle }

/-- The header is there up to `bytes_transferred`. -/
def parsed (s : ClientConnection) (bytes_transferred : Nat) : ClientConnection :=
  let size := s.response.content.content.length
  let num_additional_bytes := size - bytes_transferred
  match parse_response_header (size + 1) s.response with
  | none => { s with phase := .looping }
  | some response =>
      let s := { s with response }
      match response.find "Content-Length" with
      | some header_it =>
          match stoull header_it.2 with
          | none => { s with phase := .failed }
          | some content_length =>
              if num_additional_bytes < content_length then
                { s with phase := .content (content_length - num_additional_bytes) }
              else s.callback
      | none =>
          let is (name value : String) : Bool := (response.find name).any (fun it => it.2 == value)
          if is "Transfer-Encoding" "chunked" then { s with phase := .unframed }
          else if response.http_version < "1.1" ∨ is "Session" "close" = true then
            { s with phase := .unframed }
          else s.callback

/-- The bytes that a read takes go to the buffer of the response. -/
def fill (s : ClientConnection) (bytes : List Char) : ClientConnection :=
  let content := { s.response.content with content := s.response.content.content ++ bytes }
  { s with pos := s.pos + bytes.length, response := { s.response with content } }

/-- A completion of a read that takes at most `n` bytes. -/
def read (s : ClientConnection) (n : Nat) : ClientConnection :=
  match s.phase with
  | .header =>
      let s := s.fill ((s.stream.drop s.pos).take n)
      match endOf crlf2 s.response.content.content with
      | none => s
      | some bytes_transferred => s.parsed bytes_transferred
  | .content need =>
      let bytes := (s.stream.drop s.pos).take (min n need)
      let s := s.fill bytes
      if bytes.length < need then { s with phase := .content (need - bytes.length) }
      else s.callback
  | _ => s

/-- A read while the header is not there. -/
theorem read_header {s : ClientConnection} (h : s.phase = .header) (n : Nat) :
    let s' := s.fill ((s.stream.drop s.pos).take n)
    s.read n = (endOf crlf2 s'.response.content.content).elim s' s'.parsed := by
  unfold read
  rw [h]
  dsimp only
  split <;> simp [*]

/-- Reads send nothing. -/
theorem read_sent (s : ClientConnection) (n : Nat) :
    (s.read n).sent = s.sent ∧ (s.read n).calls = s.calls := by
  have hparsed (s : ClientConnection) (bytes_transferred : Nat) :
      (s.parsed bytes_transferred).sent = s.sent ∧ (s.parsed bytes_transferred).calls = s.calls := by
    unfold parsed
    dsimp only
    repeat' split
    all_goals exact ⟨rfl, rfl⟩
  unfold read
  dsimp only
  split
  · split
    · exact ⟨rfl, rfl⟩
    · exact hparsed _ _
  · split <;> exact ⟨rfl, rfl⟩
  · exact ⟨rfl, rfl⟩

end ClientConnection

/-! ### Both ends -/

/-- A client, a server, and the two directions of the connection between them. -/
structure Exchange where
  client : ClientConnection := {}
  server : Connection := {}

namespace Exchange

/-- What happens: the next call, some bytes that reach the other end, or an event of one end. -/
inductive Event where
  | request
  | toServer (n : Nat)
  | server (n : Nat)
  | sent
  | lost
  | toClient (n : Nat)
  | client (n : Nat)
  | hangup

/-- What the server has written. The bytes of a response may be under way before the callback of
its send. -/
def written (server : Connection) : List Char := server.handled.flatMap (fun e => e.2.toList)

section
variable {η : Type} (server : Server η) (write : Nat → η → Request → List String → String)
  (host : String) (program : List Call)

/-- One step. -/
def step (w : Exchange) : Event → Exchange
  | .request => { w with client := w.client.request host program }
  | .toServer n =>
      let bytes := (w.client.sent.drop w.server.stream.length).take n
      { w with server := w.server.step server write (.arrive bytes) }
  | .server n => { w with server := w.server.step server write (.read n) }
  | .sent => { w with server := w.server.step server write .sent }
  | .lost => { w with server := w.server.step server write .lost }
  | .toClient n =>
      let bytes := ((written w.server).drop w.client.stream.length).take n
      { w with client := { w.client with stream := w.client.stream ++ bytes } }
  | .client n => { w with client := w.client.read n }
  | .hangup => { w with client := { w.client with phase := .closed } }

end

end Exchange

end WatchedAgent.Model.Http
