import WatchedAgent.Lib.Decimal
import WatchedAgent.Model.HttpClient
import WatchedAgent.Model.Requests
import WatchedAgent.Model.StaticFiles
import WatchedAgent.Proofs.RequestText

/-!
# `WatchedAgent.Proofs.ResponseText`: the header of a response

What a handler writes is a `Reply`: a status, some fields, and a content whose length is in a
field. The client has the first line and the fields back, whatever has come behind the header.

* `parse_reply`: the header is read back, and the buffer is left at the content.
* `response_round_trip`: the replies of the agent are read back, for every content.
-/

set_option autoImplicit false

namespace WatchedAgent.Proofs.ResponseText

open WatchedAgent.Lib
open WatchedAgent.Lib.Delimited
open WatchedAgent.Lib.Text
open WatchedAgent.Model
open WatchedAgent.Model.Http
open WatchedAgent.Proofs.RequestText

/-! ### What a handler writes -/

/-- A field. Not all of them have a blank behind the colon. -/
structure Field where
  name : String
  blank : Bool := true
  value : String
  name_line : ':' ∉ name.toList ∧ '\n' ∉ name.toList
  value_line : '\n' ∉ value.toList
  value_start : blank = false → value.toList.head? ≠ some ' '

/-- Its line. -/
def Field.line (f : Field) : List Char :=
  f.name.toList ++ ':' :: ((if f.blank then [' '] else []) ++ f.value.toList)

/-- What the map has of it. -/
def Field.pair (f : Field) : String × String := (f.name, f.value)

/-- A response. -/
structure Reply where
  status : String
  fields : List Field
  content : List Char
  status_line : '\n' ∉ status.toList

/-- The version that all handlers write. -/
def version : List Char := ['H', 'T', 'T', 'P', '/', '1', '.', '1']

namespace Reply

/-- The line with the status. -/
def firstLine (r : Reply) : List Char := version ++ ' ' :: r.status.toList

/-- The lines before the empty one. -/
def lines (r : Reply) : List (List Char) := r.firstLine :: r.fields.map Field.line

/-- The header with the empty line. -/
def head (r : Reply) : List Char := linesText r.lines ++ ['\r', '\n']

/-- All that is written. -/
def text (r : Reply) : List Char := r.head ++ r.content

/-- The response that the callback gets. -/
def response (r : Reply) (content : List Char) : Response where
  http_version := "1.1"
  status_code := r.status
  header := r.fields.map Field.pair
  content := { content, pos := r.head.length }

end Reply

/-! ### Lines -/

/-- The field of a line is read back. -/
theorem Field.fieldLine (f : Field) : FieldLine f.line f.pair := by
  cases hblank : f.blank with
  | true =>
      have hline : f.line = Message.fieldLine f.pair := by
        unfold Field.line
        rw [hblank]
        rfl
      rw [hline]
      exact fieldLine_message ⟨f.name_line.1, f.name_line.2, f.value_line⟩
  | false =>
      let line := String.ofList (f.line ++ ['\r'])
      have hline : line.toList = f.name.toList ++ ':' :: (f.value.toList ++ ['\r']) := by
        show (String.ofList _).toList = _
        rw [String.toList_ofList]
        simp [Field.line, hblank]
      have hparts : line.toList = (f.name.toList ++ [':']) ++ (f.value.toList ++ ['\r']) := by
        rw [hline]
        simp
      have hname : f.name.toList.length = f.name.length := String.length_toList
      have hvalue : f.value.toList.length = f.value.length := String.length_toList
      have hlength : line.length = f.name.length + f.value.length + 2 := by
        rw [← String.length_toList, hline]
        simp only [List.length_append, List.length_cons, List.length_nil, hname, hvalue]
        omega
      have hstart : line.toList[f.name.length + 1]? ≠ some ' ' := by
        rw [hline, ← hname, List.getElem?_append_right (by omega)]
        cases hcs : f.value.toList with
        | nil => simp
        | cons c cs =>
            have hne := f.value_start hblank
            rw [hcs] at hne
            simpa using hne
      have hfst : part line 0 f.name.length = f.name := by
        rw [part_eq (List.nil_append _ ▸ hline) List.length_nil hname, String.ofList_toList]
      have hsnd : part line (f.name.length + 1) (line.length - (f.name.length + 1) - 1) = f.value := by
        rw [part_eq hparts (by simp [hname]) (by rw [hlength, hvalue]; omega), String.ofList_toList]
      refine ⟨?_, f.name.length, ?_, fun header => ?_⟩
      · simp [Field.line, hblank, f.name_line.2, f.value_line]
      · rw [find_of_split hline f.name_line.1, hname]
      · show emplaceField line f.name.length header = header ++ [f.pair]
        unfold emplaceField
        dsimp only
        rw [if_pos (by omega), if_neg hstart, if_pos (by omega), hfst, hsnd]
        rfl

theorem Reply.lines_line (r : Reply) : ∀ l ∈ r.lines, l ≠ [] ∧ '\n' ∉ l := by
  intro l hl
  rcases List.mem_cons.mp hl with hl | hl
  · rw [hl]
    refine ⟨List.append_ne_nil_of_right_ne_nil _ (List.cons_ne_nil _ _), ?_⟩
    simp only [Reply.firstLine, List.mem_append, List.mem_cons]
    rintro (h | h | h)
    · exact absurd h (by decide)
    · exact absurd h (by decide)
    · exact r.status_line h
  · obtain ⟨f, -, rfl⟩ := List.mem_map.mp hl
    exact ⟨by simp [Field.line], f.fieldLine.newline⟩

/-- The first delimiter is the one at the end of the header. -/
theorem Reply.endOf_head (r : Reply) (rest : List Char) :
    endOf crlf2 (r.head ++ rest) = some r.head.length := by
  have h := endOf_lines (List.cons_ne_nil _ _) r.lines_line rest
  rw [Reply.head, List.append_assoc, List.length_append]
  exact h

theorem Reply.endOf_text (r : Reply) : endOf crlf2 r.text = some r.head.length :=
  r.endOf_head r.content

theorem Reply.fields_lt_head (r : Reply) : r.fields.length < r.head.length := by
  have hfields : r.fields.length ≤ (linesText (r.fields.map Field.line)).length := by
    induction r.fields with
    | nil => exact Nat.le_refl 0
    | cons f fields ih =>
        simp only [linesText, List.map_cons, List.flatMap_cons, List.length_append,
          List.length_cons] at ih ⊢
        omega
  have hhead : r.head.length
      = r.firstLine.length + 2 + (linesText (r.fields.map Field.line)).length + 2 := by
    simp only [Reply.head, Reply.lines, linesText, List.flatMap_cons, List.length_append,
      List.length_cons, List.length_nil]
  omega

/-! ### The header -/

/-- For every reply and all that has come behind its header, the header is read back and the buffer
is left at the content. -/
theorem parse_reply (r : Reply) (rest : List Char) {n : Nat} (hn : r.fields.length < n) :
    parse_response_header n { content := { content := r.head ++ rest, pos := 0 } }
      = some (r.response (r.head ++ rest)) := by
  let lines := r.fields.map (fun f => (f.line, f.pair))
  have hlines : ∀ l ∈ lines, FieldLine l.1 l.2 := by
    intro l hl
    obtain ⟨f, -, rfl⟩ := List.mem_map.mp hl
    exact f.fieldLine
  have hfst : lines.map Prod.fst = r.fields.map Field.line := List.map_map
  have hsnd : lines.map Prod.snd = r.fields.map Field.pair := List.map_map
  have hbuffer : r.head ++ rest
      = r.firstLine ++ '\r' :: '\n' :: (linesText (lines.map Prod.fst) ++ '\r' :: '\n' :: rest) := by
    rw [hfst]
    simp [Reply.head, Reply.lines, linesText]
  -- The first line.
  let content : IStream := { content := r.head ++ rest, pos := 0 }
  let line := String.ofList (r.firstLine ++ ['\r'])
  have hfirst : getline content "" = ({ content with pos := r.firstLine.length + 2 }, line) := by
    rw [getline_line (show content.good = true from rfl) (by rw [← hbuffer]; rfl)
      (r.lines_line r.firstLine List.mem_cons_self).2]
    show ({ content with pos := 0 + (r.firstLine.length + 2) }, _) = _
    rw [Nat.zero_add]
  have hline : line.toList = version ++ ' ' :: (r.status.toList ++ ['\r']) := by
    show (String.ofList _).toList = _
    rw [String.toList_ofList]
    simp [Reply.firstLine]
  have hstatus : r.status.toList.length = r.status.length := String.length_toList
  have hlength : line.length = r.status.length + 10 := by
    rw [← String.length_toList, hline]
    simp only [List.length_append, List.length_cons, List.length_nil, hstatus]
    show 8 + _ = _
    omega
  have hfind : find line ' ' 0 = some 8 := find_of_split hline (by decide)
  have hversion : part line 5 (posSub (some 8) 5 line.length) = "1.1" := by
    have hparts : line.toList = ['H', 'T', 'T', 'P', '/']
        ++ (['1', '.', '1'] ++ ' ' :: (r.status.toList ++ ['\r'])) := hline
    have hpart : part line 5 3 = String.ofList ['1', '.', '1'] := part_eq hparts rfl rfl
    exact hpart
  have hcode : part line 9 (line.length - 9 - 1) = r.status := by
    have hparts : line.toList = (version ++ [' ']) ++ (r.status.toList ++ ['\r']) := hline
    have hn : r.status.toList.length = line.length - 9 - 1 := by omega
    have hpart : part line 9 (line.length - 9 - 1) = String.ofList r.status.toList :=
      part_eq hparts rfl hn
    rw [hpart, String.ofList_toList]
  -- The fields.
  let request : Request := { content := { content with pos := r.firstLine.length + 2 } }
  have hdrop : request.content.content.drop request.content.pos
      = linesText (lines.map Prod.fst) ++ '\r' :: '\n' :: rest := by
    show (r.head ++ rest).drop (r.firstLine.length + 2) = _
    rw [hbuffer, List.append_cons, List.append_cons]
    exact List.drop_left' (by simp)
  have hfields := readFields_lines hlines request rfl hdrop line (n := n)
    (by rw [List.length_map]; exact hn)
  have hhead : r.firstLine.length + 2 + (linesText (lines.map Prod.fst)).length + 2
      = r.head.length := by
    rw [hfst]
    simp only [Reply.head, Reply.lines, linesText, List.flatMap_cons, List.length_append,
      List.length_cons, List.length_nil]
  rw [hsnd] at hfields
  unfold parse_response_header
  rw [hfirst]
  dsimp only
  rw [hfind]
  dsimp only
  rw [if_pos (by omega), if_pos (by omega), hversion, hcode]
  show (readFields n { request with content := _ } _).map _ = _
  rw [hfields]
  unfold Reply.response
  rw [← hhead]
  rfl

/-! ### The length -/

/-- A length that was printed is read back. -/
theorem stoull_toString {n : Nat} (hn : n < 0x10000000000000000) :
    stoull (toString n) = some n := by
  have hchars : ∀ c ∈ Nat.toDigits 10 n, isSpace c = false ∧ c ≠ '-' ∧ c ≠ '+' :=
    all_toDigits isBase_ten (by decide)
  have hdigits : (toString n).toList = Nat.toDigits 10 n := Nat.toList_repr
  obtain ⟨d, ds, hds⟩ := exists_toDigits 10 n
  obtain ⟨hblank, hminus, hplus⟩ := hchars d (by simp [hds])
  have hdrop : (toString n).toList.dropWhile isSpace = Nat.toDigits 10 n := by
    rw [hdigits, hds, List.dropWhile_cons_of_neg (by simp [hblank])]
  have htake : (Nat.toDigits 10 n).takeWhile isDigit = Nat.toDigits 10 n := by
    have hsplit := takeWhile_digits (r := []) (isDigit_toDigits n) (by simp)
    rw [List.append_nil] at hsplit
    exact hsplit.1
  have hvalue : digitsValue 10 0 (Nat.toDigits 10 n) = n := by
    have hread := digitsValue_toDigits isBase_ten n []
    rwa [List.append_nil] at hread
  unfold stoull
  rw [hdrop]
  split
  · rename_i heq
    exact absurd (List.cons.inj (hds.symm.trans heq)).1 hminus
  · rename_i heq
    exact absurd (List.cons.inj (hds.symm.trans heq)).1 hplus
  · dsimp only
    rw [htake, hvalue, if_neg (by simp [hds]), if_pos hn]

/-! ### The handlers -/

/-- `header.find(name)`, as the client does it. -/
def findField (header : List (String × String)) (name : String) : Option (String × String) :=
  header.find? (fun it => case_insensitive_equal it.1 name)

/-- The client has the status and the fields of the text back, whatever has come behind the header,
and what is left is the content, as long as its field says. -/
structure ReadBack (text : List Char) (status : String) (header : List (String × String))
    (content : List Char) : Prop where
  parsed : ∃ head, text = head ++ content ∧ ∀ rest,
    endOf crlf2 (head ++ rest) = some head.length ∧ ∀ n, header.length < n →
      parse_response_header n { content := { content := head ++ rest, pos := 0 } }
        = some {
            http_version := "1.1"
            status_code := status
            header
            content := { content := head ++ rest, pos := head.length } }
  length : ∀ it, findField header "Content-Length" = some it →
    stoull it.2 = some content.length
  empty : findField header "Content-Length" = none → content = []

/-- The content is as long as the header says. Without a length there is none, and no other field
says where the response ends. -/
structure Reply.Framed (r : Reply) : Prop where
  length : ∀ it, findField (r.fields.map Field.pair) "Content-Length" = some it →
    stoull it.2 = some r.content.length
  empty : findField (r.fields.map Field.pair) "Content-Length" = none → r.content = [] ∧
    findField (r.fields.map Field.pair) "Transfer-Encoding" = none ∧
      findField (r.fields.map Field.pair) "Session" = none

/-- What the map has of the length. -/
def lengthPair (n : Nat) : String × String := ("Content-Length", toString n)

theorem framed_of_length {r : Reply} (h : r.content.length < 0x10000000000000000)
    (hfind : findField (r.fields.map Field.pair) "Content-Length"
      = some (lengthPair r.content.length)) : r.Framed where
  length := by
    intro it hit
    rw [← Option.some.inj (hfind.symm.trans hit)]
    exact stoull_toString h
  empty := by
    intro hnone
    rw [hfind] at hnone
    exact absurd hnone (by simp)

/-- The text is a response with these parts. -/
def Says (text : List Char) (status : String) (header : List (String × String))
    (content : List Char) : Prop :=
  ∃ r : Reply, r.text = text ∧ r.status = status ∧ r.fields.map Field.pair = header ∧
    r.content = content

/-- The content is as long as the header says, too. -/
def Writes (text : List Char) (status : String) (header : List (String × String))
    (content : List Char) : Prop :=
  ∃ r : Reply, r.Framed ∧ r.text = text ∧ r.status = status ∧ r.fields.map Field.pair = header ∧
    r.content = content

theorem Says.writes {text content : List Char} {status : String}
    {header : List (String × String)} (h : Says text status header content)
    (hfind : findField header "Content-Length" = some (lengthPair content.length))
    (hsize : content.length < 0x10000000000000000) : Writes text status header content := by
  obtain ⟨r, htext, hstatus, rfl, rfl⟩ := h
  exact ⟨r, framed_of_length hsize hfind, htext, hstatus, rfl, rfl⟩

theorem Writes.readBack {text content : List Char} {status : String}
    {header : List (String × String)} (h : Writes text status header content) :
    ReadBack text status header content := by
  obtain ⟨r, hframed, rfl, rfl, rfl, rfl⟩ := h
  exact {
    parsed := ⟨r.head, rfl, fun rest => ⟨r.endOf_head rest, fun _ hn =>
      parse_reply r rest (by rwa [List.length_map] at hn)⟩⟩
    length := hframed.length
    empty := fun hnone => (hframed.empty hnone).1 }

theorem newline_not_mem_toString (n : Nat) : '\n' ∉ (toString n).toList := by
  have hdigits : (toString n).toList = Nat.toDigits 10 n := Nat.toList_repr
  rw [hdigits]
  exact not_mem_toDigits isBase_ten (by decide)

theorem length_line : ':' ∉ "Content-Length".toList ∧ '\n' ∉ "Content-Length".toList := by decide

/-- The field with the length of a content. -/
def lengthField (n : Nat) : Field where
  name := "Content-Length"
  value := toString n
  name_line := length_line
  value_line := newline_not_mem_toString n
  value_start := fun h => absurd h Bool.noConfusion

/-- `setResponse404`. -/
theorem says_404 (content : String) :
    Says (Requests.setResponse404 content).toList "404 Not found"
      [("Server", "watched.agent"), lengthPair content.toList.length] content.toList := by
  let r : Reply :=
    { status := "404 Not found"
      fields := [⟨"Server", true, "watched.agent", by decide, by decide, by simp⟩,
        lengthField content.toList.length]
      content := content.toList
      status_line := by decide }
  refine ⟨r, ?_, rfl, rfl, rfl⟩
  unfold Requests.setResponse404
  rw [String.toList_append, String.toList_append, String.toList_append, ← String.length_toList]
  simp [r, version, Reply.text, Reply.head, Reply.lines, Reply.firstLine, linesText,
    Field.line, lengthField]

/-- `setResponseHtml`. -/
theorem says_html (content : String) :
    Says (Requests.setResponseHtml content).toList "200 OK"
      [("Server", "watched.agent"), ("Content-Type", "text/html; charset=UTF-8"),
        lengthPair content.toList.length] content.toList := by
  let r : Reply :=
    { status := "200 OK"
      fields := [⟨"Server", true, "watched.agent", by decide, by decide, by simp⟩,
        -- There is no blank behind the colon.
        ⟨"Content-Type", false, "text/html; charset=UTF-8", by decide, by decide, by decide⟩,
        lengthField content.toList.length]
      content := content.toList
      status_line := by decide }
  refine ⟨r, ?_, rfl, rfl, rfl⟩
  unfold Requests.setResponseHtml
  rw [String.toList_append, String.toList_append, String.toList_append, String.toList_append,
    ← String.length_toList]
  simp [r, version, Reply.text, Reply.head, Reply.lines, Reply.firstLine, linesText,
    Field.line, lengthField]

/-- `setResponseJson`. -/
theorem says_json (content : String) :
    Says (Requests.setResponseJson content).toList "200 OK"
      [("Server", "watched.agent"), ("Content-Type", "application/json"),
        ("Access-Control-Allow-Origin", "*"), lengthPair content.toList.length]
      content.toList := by
  let r : Reply :=
    { status := "200 OK"
      fields := [⟨"Server", true, "watched.agent", by decide, by decide, by simp⟩,
        ⟨"Content-Type", false, "application/json", by decide, by decide, by decide⟩,
        ⟨"Access-Control-Allow-Origin", false, "*", by decide, by decide, by decide⟩,
        lengthField content.toList.length]
      content := content.toList
      status_line := by decide }
  refine ⟨r, ?_, rfl, rfl, rfl⟩
  unfold Requests.setResponseJson
  rw [String.toList_append, String.toList_append, String.toList_append, String.toList_append,
    ← String.length_toList]
  simp [r, version, Reply.text, Reply.head, Reply.lines, Reply.firstLine, linesText,
    Field.line, lengthField]

/-- The client finds the length in each of them. -/
theorem writes_404 {content : String} (h : content.length < 0x10000000000000000) :
    Writes (Requests.setResponse404 content).toList "404 Not found"
      [("Server", "watched.agent"), lengthPair content.length] content.toList := by
  rw [← String.length_toList] at h ⊢
  exact (says_404 content).writes (by simp [findField, lengthPair, case_insensitive_equal]) h

theorem writes_html {content : String} (h : content.length < 0x10000000000000000) :
    Writes (Requests.setResponseHtml content).toList "200 OK"
      [("Server", "watched.agent"), ("Content-Type", "text/html; charset=UTF-8"),
        lengthPair content.length] content.toList := by
  rw [← String.length_toList] at h ⊢
  exact (says_html content).writes (by simp [findField, lengthPair, case_insensitive_equal]) h

theorem writes_json {content : String} (h : content.length < 0x10000000000000000) :
    Writes (Requests.setResponseJson content).toList "200 OK"
      [("Server", "watched.agent"), ("Content-Type", "application/json"),
        ("Access-Control-Allow-Origin", "*"), lengthPair content.length] content.toList := by
  rw [← String.length_toList] at h ⊢
  exact (says_json content).writes (by simp [findField, lengthPair, case_insensitive_equal]) h

/-! ### The files -/

/-- A `Char` for each byte. -/
def chars (body : List UInt8) : List Char := body.map (fun b => Char.ofNat b.toNat)

/-- What is sent of a response. -/
def sentText (response : StaticFiles.Response) : List Char :=
  response.text.toList ++ chars response.body

/-- The tag of a file. -/
def etag (hash : String) : String := "\"" ++ hash ++ "\""

theorem newline_not_mem_etag {hash : String} (h : '\n' ∉ hash.toList) :
    '\n' ∉ (etag hash).toList := by
  simp [etag, h]

theorem says_notModified {hash : String} (hhash : '\n' ∉ hash.toList) :
    Says (sentText (StaticFiles.notModified hash)) "304 Not Modified"
      [("Cache-Control", "max-age=86400"), ("ETag", etag hash)] [] := by
  let r : Reply :=
    { status := "304 Not Modified"
      fields := [⟨"Cache-Control", true, "max-age=86400", by decide, by decide, by simp⟩,
        ⟨"ETag", true, etag hash, by decide, newline_not_mem_etag hhash, by simp⟩]
      content := []
      status_line := by decide }
  refine ⟨r, ?_, rfl, rfl, rfl⟩
  unfold sentText StaticFiles.notModified
  rw [String.toList_append, String.toList_append]
  simp [r, chars, etag, version, Reply.text, Reply.head, Reply.lines, Reply.firstLine, linesText,
    Field.line]

theorem says_found {hash : String} (hhash : '\n' ∉ hash.toList) (body : List UInt8) :
    Says (sentText (StaticFiles.found hash (some body.length) body)) "200 OK"
      [("Cache-Control", "max-age=86400"), ("ETag", etag hash), lengthPair body.length]
      (chars body) := by
  let r : Reply :=
    { status := "200 OK"
      fields := [⟨"Cache-Control", true, "max-age=86400", by decide, by decide, by simp⟩,
        ⟨"ETag", true, etag hash, by decide, newline_not_mem_etag hhash, by simp⟩,
        lengthField body.length]
      content := chars body
      status_line := by decide }
  refine ⟨r, ?_, rfl, rfl, rfl⟩
  unfold sentText StaticFiles.found
  rw [String.toList_append, String.toList_append, String.toList_append, String.toList_append]
  simp [r, etag, version, Reply.text, Reply.head, Reply.lines, Reply.firstLine, linesText,
    Field.line, lengthField]

/-- What is said of an exception. -/
def couldNotOpen (requestPath what : String) : String :=
  "Could not open path " ++ requestPath ++ ": " ++ what

theorem says_badRequest (requestPath what : String) :
    Says (sentText (StaticFiles.badRequest requestPath what)) "400 Bad Request"
      [lengthPair (couldNotOpen requestPath what).toList.length]
      (couldNotOpen requestPath what).toList := by
  let content := couldNotOpen requestPath what
  let r : Reply :=
    { status := "400 Bad Request"
      fields := [lengthField content.toList.length]
      content := content.toList
      status_line := by decide }
  refine ⟨r, ?_, rfl, rfl, rfl⟩
  show r.text = ("HTTP/1.1 400 Bad Request\r\nContent-Length: " ++ toString content.length
    ++ "\r\n\r\n" ++ content).toList ++ []
  rw [String.toList_append, String.toList_append, String.toList_append, ← String.length_toList]
  simp [r, version, Reply.text, Reply.head, Reply.lines, Reply.firstLine, linesText,
    Field.line, lengthField]

theorem writes_notModified {hash : String} (hhash : '\n' ∉ hash.toList) :
    Writes (sentText (StaticFiles.notModified hash)) "304 Not Modified"
      [("Cache-Control", "max-age=86400"), ("ETag", etag hash)] [] := by
  obtain ⟨r, htext, hstatus, hheader, hcontent⟩ := says_notModified hhash
  -- There is no length, and none of the fields that would tell the client to read on.
  refine ⟨r, ⟨?_, fun _ => ⟨hcontent, ?_, ?_⟩⟩, htext, hstatus, hheader, hcontent⟩ <;>
    simp [hheader, findField, case_insensitive_equal]

theorem writes_found {hash : String} (hhash : '\n' ∉ hash.toList) {body : List UInt8}
    (h : body.length < 0x10000000000000000) :
    Writes (sentText (StaticFiles.found hash (some body.length) body)) "200 OK"
      [("Cache-Control", "max-age=86400"), ("ETag", etag hash), lengthPair body.length]
      (chars body) := by
  have hlength : (chars body).length = body.length := List.length_map _
  refine (says_found hhash body).writes ?_ (hlength ▸ h)
  simp [hlength, findField, lengthPair, case_insensitive_equal]

theorem writes_badRequest {requestPath what : String}
    (h : (couldNotOpen requestPath what).length < 0x10000000000000000) :
    Writes (sentText (StaticFiles.badRequest requestPath what)) "400 Bad Request"
      [lengthPair (couldNotOpen requestPath what).length]
      (couldNotOpen requestPath what).toList := by
  rw [← String.length_toList] at h ⊢
  refine (says_badRequest requestPath what).writes ?_ h
  simp [findField, lengthPair, case_insensitive_equal]

/-- For every content and every file: a client has the status, the fields and the content of each
response that the agent writes, and the length is the one of the content. -/
theorem response_round_trip (content requestPath what hash : String) (body : List UInt8)
    (hcontent : content.length < 0x10000000000000000) (hbody : body.length < 0x10000000000000000)
    (hwhat : (couldNotOpen requestPath what).length < 0x10000000000000000)
    (hhash : '\n' ∉ hash.toList) :
    ReadBack (Requests.setResponse404 content).toList "404 Not found"
        [("Server", "watched.agent"), lengthPair content.length] content.toList ∧
      ReadBack (Requests.setResponseHtml content).toList "200 OK"
        [("Server", "watched.agent"), ("Content-Type", "text/html; charset=UTF-8"),
          lengthPair content.length] content.toList ∧
      ReadBack (Requests.setResponseJson content).toList "200 OK"
        [("Server", "watched.agent"), ("Content-Type", "application/json"),
          ("Access-Control-Allow-Origin", "*"), lengthPair content.length] content.toList ∧
      ReadBack (sentText (StaticFiles.notModified hash)) "304 Not Modified"
        [("Cache-Control", "max-age=86400"), ("ETag", etag hash)] [] ∧
      ReadBack (sentText (StaticFiles.found hash (some body.length) body)) "200 OK"
        [("Cache-Control", "max-age=86400"), ("ETag", etag hash), lengthPair body.length]
        (chars body) ∧
      ReadBack (sentText (StaticFiles.badRequest requestPath what)) "400 Bad Request"
        [lengthPair (couldNotOpen requestPath what).length]
        (couldNotOpen requestPath what).toList :=
  ⟨(writes_404 hcontent).readBack, (writes_html hcontent).readBack, (writes_json hcontent).readBack,
    (writes_notModified hhash).readBack, (writes_found hhash hbody).readBack,
    (writes_badRequest hwhat).readBack⟩

theorem response_round_trip_hello :
    ReadBack (Requests.setResponseJson "hello").toList "200 OK"
      [("Server", "watched.agent"), ("Content-Type", "application/json"),
        ("Access-Control-Allow-Origin", "*"), ("Content-Length", "5")] "hello".toList :=
  (response_round_trip "hello" "a" "b" "0f" [1] (by decide) (by decide) (by decide)
    (by decide)).2.2.1

end WatchedAgent.Proofs.ResponseText
