import WatchedAgent.Lib.ByteStream
import WatchedAgent.Lib.Run
import WatchedAgent.Model.StaticFiles

/-!
# `WatchedAgent.Model.Sending`: the chain of sends of a static file

`default_resource_send` and `defaults_resource_send` of `src/server.cpp`, with the part of
`default_resource["GET"]` that starts them. One call reads a block into the buffer that all
calls share, writes it to the response, and asks the server for a send. The callback of the
send makes the next call, so a chain is a state between two completions (`complete`).
`StaticFiles.sendLoop` is the same chain as one loop.

What is written to a response waits in its stream buffer until a send transfers it. The
chain is over when no send with a callback is under way. Then the last pointer to the
response is dropped, and its deleter sends what still waits.
-/

set_option autoImplicit false

namespace WatchedAgent.Model

open WatchedAgent.Lib

namespace Sending

/-- The bytes of a text, which has one character for each. -/
def bytesOf (text : String) : List UInt8 := text.toList.map (fun c => UInt8.ofNat c.toNat)

/-- A response: the bytes that were transferred, and those that wait in the stream buffer. -/
structure Response where
  wire : List UInt8 := []
  streambuf : List UInt8 := []
  deriving DecidableEq

namespace Response

/-- `response->write(data, n)` and `*response << text`. -/
def write (r : Response) (bytes : List UInt8) : Response :=
  { r with streambuf := r.streambuf ++ bytes }

/-- `async_write` transfers the first `n` bytes of the stream buffer. -/
def transfer (r : Response) (n : Nat) : Response :=
  { wire := r.wire ++ r.streambuf.take n, streambuf := r.streambuf.drop n }

/-- All that was written to the response. -/
def written (r : Response) : List UInt8 := r.wire ++ r.streambuf

theorem written_write (r : Response) (bytes : List UInt8) :
    (r.write bytes).written = r.written ++ bytes := by
  unfold written write
  rw [List.append_assoc]

theorem written_transfer (r : Response) (n : Nat) : (r.transfer n).written = r.written := by
  unfold written transfer
  rw [List.append_assoc, List.take_append_drop]

end Response

/-- The chain between two calls: what the callbacks hold, whether a send with a callback is
under way, and the number of reads so far. -/
structure Chain where
  response : Response
  ifs : ByteStream
  buffer : List UInt8
  pending : Bool := false
  reads : Nat := 0
  deriving DecidableEq

/-- The body of both functions. -/
def resource_send (c : Chain) : Chain :=
  let (ifs, bytes) := c.ifs.read c.buffer.length
  -- The block overwrites the front of the buffer, which keeps the rest of the last one.
  let buffer := bytes ++ c.buffer.drop bytes.length
  let read_length := bytes.length
  let c := { c with ifs, buffer, reads := c.reads + 1 }
  if 0 < read_length then
    { c with
      response := c.response.write (buffer.take read_length)
      pending := read_length == buffer.length }
  else c

/-- `default_resource_send`. -/
def default_resource_send : Chain → Chain := resource_send

/-- `defaults_resource_send`. -/
def defaults_resource_send : Chain → Chain := resource_send

/-- The end of a send: all bytes went out, or there was an error after some of them. -/
inductive Completion where
  | sent
  | failed (transferred : Nat)
  deriving DecidableEq

/-- The callback of the send that is under way. -/
def complete (send : Chain → Chain) (c : Chain) (e : Completion) : Chain :=
  if c.pending then
    match e with
    | .sent =>
        send { c with
          response := c.response.transfer c.response.streambuf.length
          pending := false }
    | .failed transferred =>
        { c with response := c.response.transfer transferred, pending := false }
  else c

/-- The block of `default_resource["GET"]` that answers with the content of an open file. -/
def answer (send : Chain → Chain) (hash : String) (content : List UInt8) : Chain :=
  let ifs : ByteStream := { content }
  let buffer_size := 131072
  let buffer := List.replicate buffer_size 0
  let ifs := ifs.seekg content.length
  let length := ifs.tellg
  let ifs := ifs.seekg 0
  let response : Response := {}
  let response := response.write (bytesOf (StaticFiles.found hash length []).text)
  send { response, ifs, buffer }

/-- The chain of the plain server after the completions `es`. -/
def http_send (hash : String) (content : List UInt8) (es : List Completion) : Chain :=
  Run.exec (complete default_resource_send) (answer default_resource_send hash content) es

/-- The chain of the TLS server after the completions `es`. -/
def https_send (hash : String) (content : List UInt8) (es : List Completion) : Chain :=
  Run.exec (complete defaults_resource_send) (answer defaults_resource_send hash content) es

end Sending

end WatchedAgent.Model
