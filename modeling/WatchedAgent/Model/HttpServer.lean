import WatchedAgent.Lib.Delimited
import WatchedAgent.Lib.IStream
import WatchedAgent.Lib.Regex
import WatchedAgent.Lib.Text

/-!
# `WatchedAgent.Model.HttpServer`: a connection of the server

`ServerBase` of `sws/server_http.hpp`: a connection reads a request until the empty line behind
its header (`parse_request`), reads what is missing of its content, looks a handler up
(`find_resource`), sends what the handler wrote, and reads the next request unless one of the
two sides closes (`read_request_and_content`, `write_response`).

The socket is the stream of the bytes the client has sent, with the position up to which they
were read. A completion of a read takes some of them, at most as many as it asked for. A timeout,
an error and a client that hangs up are one event, `lost`.

The agent sets neither `on_upgrade` nor `close_connection_after_response`, so they are left out.
A header has its fields in the order of the lines. The multimap of the library has them in an
order of its own, also where a name is there more than once: `MultimapOrder` is a parameter of
the server, which looks at the fields in that order.
-/

set_option autoImplicit false

namespace WatchedAgent.Model.Http

open WatchedAgent.Lib
open WatchedAgent.Lib.Delimited
open WatchedAgent.Lib.Regex (regexMatch)
open WatchedAgent.Lib.Text

/-! ### Requests -/

/-- `case_insensitive_equal`. -/
def case_insensitive_equal (str1 str2 : String) : Bool :=
  str1.toList.map Char.toLower == str2.toList.map Char.toLower

/-- `class Request`. -/
structure Request where
  method : String := ""
  path : String := ""
  http_version : String := ""
  header : List (String × String) := []
  content : IStream
  deriving DecidableEq

/-- The order in which a `CaseInsensitiveMultimap` has what was put into it. -/
structure MultimapOrder where
  arrange : List (String × String) → List (String × String)
  perm : ∀ pairs, (arrange pairs).Perm pairs

/-- The order of the text. -/
def lineOrder : MultimapOrder where
  arrange := id
  perm := List.Perm.refl

/-- `header.find(name)`. -/
def Request.find (order : MultimapOrder) (request : Request) (name : String) :
    Option (String × String) :=
  (order.arrange request.header).find? (fun it => case_insensitive_equal it.1 name)

/-- What is found is a field of the name. -/
theorem Request.mem_of_find {order : MultimapOrder} {request : Request} {name : String}
    {it : String × String} (h : request.find order name = some it) :
    it ∈ request.header ∧ case_insensitive_equal it.1 name = true := by
  have hname := List.find?_some h
  exact ⟨(order.perm _).subset (List.mem_of_find?_eq_some h), hname⟩

/-- Where nothing is found, there is no field of the name. -/
theorem Request.not_of_find_none {order : MultimapOrder} {request : Request} {name : String}
    (h : request.find order name = none) :
    ∀ it ∈ request.header, case_insensitive_equal it.1 name = false := by
  intro it hit
  exact Bool.eq_false_iff.mpr (List.find?_eq_none.mp h it ((order.perm _).symm.subset hit))

/-- `line.substr(pos, n)`, at a position of the line. -/
def part (line : String) (pos n : Nat) : String := String.ofList ((line.toList.drop pos).take n)

/-- `getline(request->content, line)`. On a stream that is not good it leaves the line alone. -/
def getline (content : IStream) (line : String) : IStream × String :=
  if content.good then
    let (content, line) := content.getline
    (content, String.ofList line)
  else ({ content with failbit := true }, line)

/-- The field on a line with a colon at `param_end`. -/
def emplaceField (line : String) (param_end : Nat) (header : List (String × String)) :
    List (String × String) :=
  let value_start := param_end + 1
  if value_start < line.length then
    let value_start := if line.toList[value_start]? = some ' ' then value_start + 1 else value_start
    if value_start < line.length then
      -- The last character is taken for the `\r`.
      header ++ [(part line 0 param_end, part line value_start (line.length - value_start - 1))]
    else header
  else header

/-- At most `n` turns of the loop over the fields. `none` when it would go on. -/
def readFields : Nat → Request → String → Option Request
  | 0, _, _ => none
  | n + 1, request, line =>
      match find line ':' 0 with
      | none => some request
      | some param_end =>
          let header := emplaceField line param_end request.header
          let (content, line) := getline request.content line
          readFields n { request with header, content } line

/-- `parse_request`, with at most `n` turns of its loop: its result, and the request. -/
def parse_request (n : Nat) (request : Request) : Option (Bool × Request) :=
  let (content, line) := getline request.content ""
  let request := { request with content }
  match find line ' ' 0 with
  | none => some (false, request)
  | some method_end =>
      match find line ' ' (method_end + 1) with
      | none => some (false, request)
      | some path_end =>
          let method := part line 0 method_end
          let path := part line (method_end + 1) (path_end - method_end - 1)
          let request := { request with method, path }
          match find line '/' (path_end + 1) with
          | none => some (false, request)
          | some protocol_end =>
              if part line (path_end + 1) (protocol_end - path_end - 1) ≠ "HTTP" then
                some (false, request)
              else
                let http_version := part line (protocol_end + 1)
                  (posSub (some line.length) (protocol_end + 2) line.length)
                let (content, line) := getline request.content line
                (readFields n { request with http_version, content } line).map (true, ·)

/-- `stoull`. `none` is an exception. -/
def stoull (s : String) : Option Nat :=
  let value (cs : List Char) : Option Nat :=
    let digits := cs.takeWhile isDigit
    if digits = [] then none
    else if digitsValue 10 0 digits < 0x10000000000000000 then some (digitsValue 10 0 digits)
    else none
  match s.toList.dropWhile isSpace with
  | '-' :: cs => (value cs).map (fun n => (0x10000000000000000 - n) % 0x10000000000000000)
  | '+' :: cs => value cs
  | cs => value cs

/-- Is another request read after the response? -/
def keepsAlive (order : MultimapOrder) (request : Request) : Bool :=
  let range := (order.arrange request.header).filter
    (fun it => case_insensitive_equal it.1 "Connection")
  let decided := range.findSome? (fun it =>
    if case_insensitive_equal it.2 "close" then some false
    else if case_insensitive_equal it.2 "keep-alive" then some true
    else none)
  decided.getD (decide ("1.1" ≤ request.http_version))

/-! ### The server -/

/-- The resources of a server, in the order of their expressions, with the handlers of each
method, and the order that the headers have. -/
structure Server (η : Type) where
  resource : List (String × List (String × η)) := []
  default_resource : List (String × η) := []
  order : MultimapOrder := lineOrder

/-- `find_resource`: the handler, and the groups of the match. -/
def find_resource {η : Type} (server : Server η) (request : Request) : Option (η × List String) :=
  let found := server.resource.findSome? (fun regex_method =>
    (regex_method.2.lookup request.method).bind (fun handler =>
      (regexMatch regex_method.1 request.path).map (fun path_match => (handler, path_match))))
  found.or ((server.default_resource.lookup request.method).map (fun handler => (handler, [])))

/-- What a connection waits for: the rest of a header, some bytes of a content, or the end of a
send. `looping` is a loop that does not end. -/
inductive Phase where
  | header
  | content (need : Nat)
  | sending (text : String)
  | closed
  | looping
  deriving DecidableEq

/-- A connection. `stream` is what the client has sent, of which the first `pos` bytes were
read. A request is handled together with the text that its handler writes. -/
structure Connection where
  stream : List Char := []
  pos : Nat := 0
  steps : Nat := 0
  request : Request := { content := { content := [], pos := 0 } }
  phase : Phase := .header
  handled : List (Request × String) := []
  responses : List String := []

/-- What happens to a connection. A read takes at most `n` bytes. -/
inductive Event where
  | arrive (bytes : List Char)
  | read (n : Nat)
  | sent
  | lost

section
variable {η : Type} (server : Server η) (write : Nat → η → Request → List String → String)

namespace Connection

/-- A request that is complete. The handler writes a text, which depends on the state of the
agent at that step. -/
def handle (s : Connection) : Connection :=
  match find_resource server s.request with
  | none => { s with phase := .closed }
  | some (handler, path_match) =>
      let text := write s.steps handler s.request path_match
      { s with handled := s.handled ++ [(s.request, text)], phase := .sending text }

/-- The header is there up to `bytes_transferred`. -/
def parsed (s : Connection) (bytes_transferred : Nat) : Connection :=
  let size := s.request.content.content.length
  let num_additional_bytes := size - bytes_transferred
  match parse_request (size + 1) s.request with
  | none => { s with phase := .looping }
  | some (false, request) => { s with request, phase := .closed }
  | some (true, request) =>
      let s := { s with request }
      match request.find server.order "Content-Length" with
      | none => s.handle server write
      | some it =>
          match stoull it.2 with
          | none => { s with phase := .closed }
          | some content_length =>
              if num_additional_bytes < content_length then
                { s with phase := .content (content_length - num_additional_bytes) }
              else s.handle server write

/-- The bytes that a read takes go to the stream buffer of the request. -/
def fill (s : Connection) (bytes : List Char) : Connection :=
  let content := { s.request.content with content := s.request.content.content ++ bytes }
  { s with pos := s.pos + bytes.length, request := { s.request with content } }

/-- A completion of a read: `async_read_until`, and `async_read` with `transfer_exactly`. -/
def read (s : Connection) (n : Nat) : Connection :=
  match s.phase with
  | .header =>
      let s := s.fill ((s.stream.drop s.pos).take n)
      match endOf crlf2 s.request.content.content with
      | none => s
      | some bytes_transferred => s.parsed server write bytes_transferred
  | .content need =>
      let bytes := (s.stream.drop s.pos).take (min n need)
      let s := s.fill bytes
      if bytes.length < need then { s with phase := .content (need - bytes.length) }
      else s.handle server write
  | _ => s

/-- A read while the header is not there. -/
theorem read_header {s : Connection} (h : s.phase = .header) (n : Nat) :
    let s' := s.fill ((s.stream.drop s.pos).take n)
    s.read server write n
      = (endOf crlf2 s'.request.content.content).elim s' (s'.parsed server write) := by
  unfold read
  rw [h]
  dsimp only
  split <;> simp [*]

/-- The callback of a send. -/
def sent (s : Connection) : Connection :=
  match s.phase with
  | .sending text =>
      let s := { s with responses := s.responses ++ [text] }
      if keepsAlive server.order s.request then
        { s with request := { content := { content := [], pos := 0 } }, phase := .header }
      else { s with phase := .closed }
  | _ => s

/-- One step. -/
def step (s : Connection) (e : Event) : Connection :=
  let s := { s with steps := s.steps + 1 }
  match e with
  | .arrive bytes => { s with stream := s.stream ++ bytes }
  | .read n => s.read server write n
  | .sent => s.sent server
  | .lost => if s.phase = .looping then s else { s with phase := .closed }

end Connection

end

end WatchedAgent.Model.Http
