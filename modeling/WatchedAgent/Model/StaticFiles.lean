import WatchedAgent.Lib.FileTree
import WatchedAgent.Lib.Text

/-!
# `WatchedAgent.Model.StaticFiles`: the static file handler

`default_resource["GET"]` of `src/server.cpp`, which serves the files below `web_root`.
The constructor of `HttpServer` holds it twice, for the plain server and for the TLS one,
and so does the source of `default_resource_send`. The two copies are the same, so each is
one definition here under both names.

The file system is a tree without links. A directory can be opened like a file, and then
the position of its end depends on the kind of file system. Text is a `String`, one `Char`
for each byte.
-/

set_option autoImplicit false

namespace WatchedAgent.Model

open WatchedAgent.Lib
open WatchedAgent.Lib.FileTree

/-- What the handler meets of a directory: the position a seek to its end gives, if that
seek works. -/
structure DirData where
  seekEnd : Option Nat := some 0
  deriving DecidableEq

/-- What the handler meets of a file. -/
structure FileData where
  content : List UInt8
  readable : Bool := true
  deriving DecidableEq

/-- The file system. -/
abbrev FileSystem := Tree DirData FileData

/-- The functions of the C++ library and of OpenSSL the handler calls. `digest` is the
hexadecimal text of the SHA-256 hash. `vectorError` is the text of the exception that
`std::vector<char>(n)` throws: none for an empty vector, and one for the size `-1`
becomes. -/
structure Runtime where
  digest : List UInt8 → String
  vectorError : Nat → Option String
  vectorError_zero : vectorError 0 = none
  vectorError_npos : (vectorError 0xFFFFFFFFFFFFFFFF).isSome = true

namespace StaticFiles

/-- A response: the text the handler writes, and then the bytes of the file. -/
structure Response where
  text : String
  body : List UInt8 := []
  deriving DecidableEq

/-- The position of the end, from which `tellg` of a stream opened with `ate` reads the
size. `none` when the open fails. -/
def endOf : Option (Node DirData FileData) → Option Nat
  | some (.file f) => if f.readable then some f.content.length else none
  | some (.dir d) => d.seekEnd
  | none => none

/-- What a stream on the node reads. A directory gives nothing. -/
def contentOf : Option (Node DirData FileData) → List UInt8
  | some (.file f) => f.content
  | _ => []

/-- `sha256`. A failed open makes the size `-1`, and then the vector throws. -/
def sha256 (rt : Runtime) (fs : FileSystem) (cwd : Place) (fname : String) :
    Except String String :=
  let file := fs.stat cwd (Text.cstr fname)
  let size := (endOf file).getD 0xFFFFFFFFFFFFFFFF
  match rt.vectorError size with
  | some what => .error what
  | none =>
      -- A read of a directory fails, unless no byte is asked for.
      if (contentOf file).length = size then .ok (rt.digest (contentOf file)) else .ok ""

/-- The chunk loop of both `send` functions: what is written to the response. The `k`-th
send fails when `ec k` holds, and then the rest is dropped. -/
def sendLoop (ec : Nat → Bool) (k : Nat) (rest : List UInt8) : List UInt8 :=
  let chunk := rest.take 131072
  if chunk.length = 131072 ∧ ec k = false then
    chunk ++ sendLoop ec (k + 1) (rest.drop 131072)
  else chunk
termination_by rest.length
decreasing_by
  rename_i h
  rw [List.length_take] at h
  rw [List.length_drop]
  omega

/-- `default_resource_send`. -/
def default_resource_send (ec : Nat → Bool) (content : List UInt8) : List UInt8 :=
  sendLoop ec 0 content

/-- `defaults_resource_send`. -/
def defaults_resource_send (ec : Nat → Bool) (content : List UInt8) : List UInt8 :=
  sendLoop ec 0 content

/-- The answer to a client that has the file. -/
def notModified (hash : String) : Response where
  text := "HTTP/1.1 304 Not Modified\r\nCache-Control: max-age=86400\r\nETag: \"" ++ hash
    ++ "\"\r\n\r\n"

/-- The answer with the file. -/
def found (hash : String) (length : Option Nat) (body : List UInt8) : Response where
  text := "HTTP/1.1 200 OK\r\nCache-Control: max-age=86400\r\nETag: \"" ++ hash
    ++ "\"\r\nContent-Length: " ++ (length.map toString).getD "-1" ++ "\r\n\r\n"
  body := body

/-- The answer to an exception. -/
def badRequest (requestPath what : String) : Response where
  text :=
    let content := "Could not open path " ++ requestPath ++ ": " ++ what
    "HTTP/1.1 400 Bad Request\r\nContent-Length: " ++ toString content.length ++ "\r\n\r\n"
      ++ content

/-- The `try` block, with the `send` function of the server. `.error` is the text of the
exception. -/
def serve (rt : Runtime) (send : List UInt8 → List UInt8) (fs : FileSystem) (cwd : Place)
    (webRoot requestPath : String) (ifNoneMatch : Option String) : Except String Response :=
  let path := webRoot ++ "/" ++ requestPath
  match fs.stat cwd (Text.cstr path) with
  | none => .error "file does not exist"
  | some st =>
      -- A directory answers with its index.
      let path := if st.isDir then path ++ "/index.html" else path
      match fs.stat cwd (Text.cstr path) with
      | none => .error "file does not exist"
      | some file =>
          match sha256 rt fs cwd path with
          | .error what => .error what
          | .ok hash =>
              -- The client has this content already.
              if ifNoneMatch = some ("\"" ++ hash ++ "\"") then .ok (notModified hash)
              else
                match file with
                | .file ⟨_, false⟩ => .error "could not read file"
                | _ => .ok (found hash (endOf (some file)) (send (contentOf (some file))))

/-- The handler, with the `send` function of the server. -/
def default_resource (rt : Runtime) (send : List UInt8 → List UInt8) (fs : FileSystem)
    (cwd : Place) (webRoot requestPath : String) (ifNoneMatch : Option String) : Response :=
  match serve rt send fs cwd webRoot requestPath ifNoneMatch with
  | .ok response => response
  | .error what => badRequest requestPath what

/-- `http->default_resource["GET"]`. -/
def http_default_resource (rt : Runtime) (ec : Nat → Bool) :=
  default_resource rt (default_resource_send ec)

/-- `https->default_resource["GET"]`. -/
def https_default_resource (rt : Runtime) (ec : Nat → Bool) :=
  default_resource rt (defaults_resource_send ec)

/-- Where every send works, the whole file is written. -/
theorem sendLoop_of_no_error {ec : Nat → Bool} (hec : ∀ k, ec k = false) (k : Nat)
    (rest : List UInt8) : sendLoop ec k rest = rest := by
  fun_induction sendLoop ec k rest with
  | case1 k rest chunk h ih => rw [ih, List.take_append_drop]
  | case2 k rest chunk h =>
      have hshort : rest.length ≤ 131072 := by
        by_contra hlong
        refine h ⟨?_, hec k⟩
        rw [List.length_take]
        omega
      exact List.take_of_length_le hshort

end StaticFiles

end WatchedAgent.Model
