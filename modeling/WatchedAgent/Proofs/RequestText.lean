import WatchedAgent.Model.HttpServer

/-!
# `WatchedAgent.Proofs.RequestText`: the header of a request

`parse_request` reads the header from the stream buffer line by line. The buffer ends anywhere
behind the empty line, since the read that brought the delimiter may have brought more.

* `parse_message`: what a client has written is read back, and the buffer is left at the content.
* `parse_request_ends`: on every buffer that has the delimiter the loop over the fields ends, and
  nothing behind the delimiter is read. Without the delimiter the loop may go on forever.
-/

set_option autoImplicit false

namespace WatchedAgent.Proofs.RequestText

open WatchedAgent.Lib
open WatchedAgent.Lib.Delimited
open WatchedAgent.Lib.Text
open WatchedAgent.Model.Http

/-! ### What a client writes -/

/-- A request as a client sends it. -/
structure Message where
  method : String
  path : String
  version : String
  fields : List (String × String)
  content : List Char
  method_solid : ∀ c ∈ method.toList, c ≠ ' ' ∧ c ≠ '\n'
  path_solid : ∀ c ∈ path.toList, c ≠ ' ' ∧ c ≠ '\n'
  version_line : '\n' ∉ version.toList
  fields_line : ∀ f ∈ fields, ':' ∉ f.1.toList ∧ '\n' ∉ f.1.toList ∧ '\n' ∉ f.2.toList

namespace Message

/-- The line with the method. -/
def firstLine (m : Message) : List Char :=
  m.method.toList ++ ' ' :: (m.path.toList ++ ' ' :: ("HTTP".toList ++ '/' :: m.version.toList))

/-- The line of a field. -/
def fieldLine (f : String × String) : List Char := f.1.toList ++ ':' :: ' ' :: f.2.toList

/-- The lines before the empty one. -/
def lines (m : Message) : List (List Char) := m.firstLine :: m.fields.map fieldLine

/-- The header with the empty line. -/
def head (m : Message) : List Char := linesText m.lines ++ ['\r', '\n']

/-- All that is sent. -/
def text (m : Message) : List Char := m.head ++ m.content

theorem lines_line (m : Message) : ∀ l ∈ m.lines, l ≠ [] ∧ '\n' ∉ l := by
  intro l hl
  rcases List.mem_cons.mp hl with rfl | hl
  · refine ⟨by simp [firstLine], ?_⟩
    simp only [firstLine, List.mem_append, List.mem_cons]
    rintro (h | h | h | h | h | h | h)
    · exact (m.method_solid _ h).2 rfl
    · exact absurd h (by decide)
    · exact (m.path_solid _ h).2 rfl
    · exact absurd h (by decide)
    · exact absurd h (by decide)
    · exact absurd h (by decide)
    · exact m.version_line h
  · obtain ⟨f, hf, rfl⟩ := List.mem_map.mp hl
    obtain ⟨-, hname, hvalue⟩ := m.fields_line f hf
    refine ⟨by simp [fieldLine], ?_⟩
    simp only [fieldLine, List.mem_append, List.mem_cons]
    rintro (h | h | h | h)
    · exact hname h
    · exact absurd h (by decide)
    · exact absurd h (by decide)
    · exact hvalue h

/-- The first delimiter is the one at the end of the header. -/
theorem endOf_head (m : Message) (rest : List Char) :
    endOf crlf2 (m.head ++ rest) = some m.head.length := by
  have h := endOf_lines (List.cons_ne_nil _ _) m.lines_line rest
  rw [head, List.append_assoc, List.length_append]
  exact h

theorem endOf_text (m : Message) : endOf crlf2 m.text = some m.head.length :=
  m.endOf_head m.content

end Message

/-- The words of a request, as far as they do not end their part of the header. -/
structure Words (method path : String) (fields : List (String × String)) : Prop where
  method : ∀ c ∈ method.toList, c ≠ ' ' ∧ c ≠ '\n'
  path : ∀ c ∈ path.toList, c ≠ ' ' ∧ c ≠ '\n'
  fields : ∀ f ∈ fields, ':' ∉ f.1.toList ∧ '\n' ∉ f.1.toList ∧ '\n' ∉ f.2.toList

theorem newline_not_mem_version : '\n' ∉ "1.1".toList := by decide

/-- A request of version 1.1. -/
def Message.ofWords {method path : String} {fields : List (String × String)}
    (h : Words method path fields) (content : List Char) : Message where
  method := method
  path := path
  version := "1.1"
  fields := fields
  content := content
  method_solid := h.method
  path_solid := h.path
  version_line := newline_not_mem_version
  fields_line := h.fields

/-! ### Lines of the buffer -/

/-- A line is read, with its `\r`. -/
theorem getline_line {content : IStream} (hgood : content.good = true) {l rest : List Char}
    (h : content.content.drop content.pos = l ++ '\r' :: '\n' :: rest) (hl : '\n' ∉ l)
    (line : String) :
    getline content line
      = ({ content with pos := content.pos + (l.length + 2) }, String.ofList (l ++ ['\r'])) := by
  have hline : '\n' ∉ l ++ ['\r'] := by
    rw [List.mem_append, List.mem_singleton, not_or]
    exact ⟨hl, by decide⟩
  unfold getline
  rw [if_pos hgood, IStream.getline_of_drop hgood (by rw [h, List.append_cons]) hline]
  dsimp only
  rw [List.length_append, List.length_singleton]
  rfl

theorem part_eq {line : String} {before it after : List Char}
    (h : line.toList = before ++ (it ++ after)) {pos n : Nat} (hpos : before.length = pos)
    (hn : it.length = n) : part line pos n = String.ofList it := by
  unfold part
  rw [h, ← hpos, List.drop_left, ← hn, List.take_left]

/-- The line gives the field. -/
structure FieldLine (line : List Char) (f : String × String) : Prop where
  newline : '\n' ∉ line
  read : ∃ param_end, find (String.ofList (line ++ ['\r'])) ':' 0 = some param_end ∧
    ∀ header, emplaceField (String.ofList (line ++ ['\r'])) param_end header = header ++ [f]

/-- The field of a line is read back. -/
theorem fieldLine_message {f : String × String}
    (hf : ':' ∉ f.1.toList ∧ '\n' ∉ f.1.toList ∧ '\n' ∉ f.2.toList) :
    FieldLine (Message.fieldLine f) f := by
  obtain ⟨hcolon, hname, hvalue⟩ := hf
  let line := String.ofList (Message.fieldLine f ++ ['\r'])
  have hline : line.toList = f.1.toList ++ ':' :: ' ' :: (f.2.toList ++ ['\r']) := by
    show (String.ofList _).toList = _
    rw [String.toList_ofList]
    simp [Message.fieldLine]
  have hlength : line.length = f.1.length + f.2.length + 3 := by
    rw [← String.length_toList, hline]
    simp only [List.length_append, List.length_cons, List.length_nil, String.length_toList]
    omega
  refine ⟨by simp [Message.fieldLine, hname, hvalue], f.1.length, ?_, fun header => ?_⟩
  · rw [find_of_split hline hcolon, String.length_toList]
  · have hblank : line.toList[f.1.length + 1]? = some ' ' := by
      rw [hline, ← String.length_toList, List.getElem?_append_right (by omega)]
      simp
    have hfst : part line 0 f.1.length = f.1 := by
      rw [part_eq (List.nil_append _ ▸ hline) List.length_nil String.length_toList,
        String.ofList_toList]
    have hsnd : part line (f.1.length + 1 + 1) (line.length - (f.1.length + 1 + 1) - 1) = f.2 := by
      have hparts : line.toList = (f.1.toList ++ [':', ' ']) ++ (f.2.toList ++ ['\r']) := by
        rw [hline]
        simp
      rw [part_eq hparts (by simp [String.length_toList])
        (by rw [hlength, String.length_toList]; omega), String.ofList_toList]
    show emplaceField line f.1.length header = header ++ [f]
    unfold emplaceField
    dsimp only
    rw [if_pos (by omega), if_pos hblank, if_pos (by omega), hfst, hsnd]

theorem readFields_none {line : String} (h : find line ':' 0 = none) (n : Nat)
    (request : Request) : readFields (n + 1) request line = some request := by
  rw [readFields, h]

theorem readFields_succ {line : String} {param_end : Nat} (h : find line ':' 0 = some param_end)
    (n : Nat) (request : Request) : readFields (n + 1) request line
      = readFields n
          { request with
            header := emplaceField line param_end request.header
            content := (getline request.content line).1 } (getline request.content line).2 := by
  rw [readFields, h]

/-- The line that was read before does not matter for a good stream. -/
theorem getline_congr {content : IStream} (hgood : content.good = true) (line line' : String) :
    getline content line = getline content line' := by
  unfold getline
  rw [if_pos hgood, if_pos hgood]

/-- A request with some more fields, whose lines were read. -/
def readOn (request : Request) (lines : List (List Char × (String × String))) : Request :=
  { request with
    header := request.header ++ lines.map Prod.snd
    content := { request.content with
      pos := request.content.pos + (linesText (lines.map Prod.fst)).length } }

/-- The turns of the loop for the lines of some fields. -/
theorem readFields_skip {lines : List (List Char × (String × String))}
    (hlines : ∀ l ∈ lines, FieldLine l.1 l.2) (request : Request)
    (hgood : request.content.good = true) {rest : List Char}
    (h : request.content.content.drop request.content.pos
      = linesText (lines.map Prod.fst) ++ rest) (line : String) (n : Nat) :
    (readOn request lines).content.content.drop (readOn request lines).content.pos = rest ∧
    readFields (n + lines.length)
        { request with content := (getline request.content line).1 }
        (getline request.content line).2
      = readFields n
          { readOn request lines with content := (getline (readOn request lines).content line).1 }
          (getline (readOn request lines).content line).2 := by
  induction lines generalizing request with
  | nil =>
      have hsame : readOn request [] = request := by
        unfold readOn
        rw [List.map_nil, List.append_nil]
        rfl
      rw [hsame]
      exact ⟨h, rfl⟩
  | cons l lines ih =>
      obtain ⟨hnewline, param_end, hfind, hemplace⟩ := hlines l List.mem_cons_self
      have hdrop : request.content.content.drop request.content.pos
          = l.1 ++ '\r' :: '\n' :: (linesText (lines.map Prod.fst) ++ rest) := by
        rw [h]
        simp [linesText]
      let next : Request :=
        { request with
          header := request.header ++ [l.2]
          content := { request.content with pos := request.content.pos + (l.1.length + 2) } }
      have hrest : next.content.content.drop next.content.pos
          = linesText (lines.map Prod.fst) ++ rest := by
        show request.content.content.drop (request.content.pos + _) = _
        rw [← List.drop_drop, hdrop, List.append_cons, List.append_cons]
        exact List.drop_left' (by simp)
      have hon : readOn next lines = readOn request (l :: lines) := by
        have hpos : next.content.pos + (linesText (lines.map Prod.fst)).length
            = request.content.pos + (linesText ((l :: lines).map Prod.fst)).length := by
          simp only [next, linesText, List.map_cons, List.flatMap_cons, List.length_append,
            List.length_cons, List.length_nil]
          omega
        have hheader : next.header ++ lines.map Prod.snd
            = request.header ++ (l :: lines).map Prod.snd :=
          (List.append_cons _ _ _).symm
        unfold readOn
        rw [hpos, hheader]
      obtain ⟨hdropOn, hread⟩ := ih
        (fun g hg => hlines g (List.mem_cons_of_mem l hg)) next hgood hrest
      rw [hon] at hdropOn hread
      have hnext : next.content.good = true := hgood
      refine ⟨hdropOn, ?_⟩
      rw [getline_line hgood hdrop hnewline, List.length_cons, ← Nat.add_assoc,
        readFields_succ hfind, hemplace, ← hread,
        getline_congr hnext line (String.ofList (l.1 ++ ['\r']))]

/-- The loop over the lines of some fields, which the empty line ends. -/
theorem readFields_lines {lines : List (List Char × (String × String))}
    (hlines : ∀ l ∈ lines, FieldLine l.1 l.2) (request : Request)
    (hgood : request.content.good = true) {rest : List Char}
    (h : request.content.content.drop request.content.pos
      = linesText (lines.map Prod.fst) ++ '\r' :: '\n' :: rest) (line : String) {n : Nat}
    (hn : lines.length < n) :
    readFields n { request with content := (getline request.content line).1 }
        (getline request.content line).2
      = some { request with
          header := request.header ++ lines.map Prod.snd
          content := { request.content with
            pos := request.content.pos + (linesText (lines.map Prod.fst)).length + 2 } } := by
  obtain ⟨k, rfl⟩ : ∃ k, n = k + 1 + lines.length := ⟨n - 1 - lines.length, by omega⟩
  obtain ⟨hrest, hfields⟩ := readFields_skip hlines request hgood h line (k + 1)
  have hempty : find (String.ofList ([] ++ ['\r'])) ':' 0 = none := by decide
  have hon : (readOn request lines).content.good = true := hgood
  rw [getline_line hon (l := []) hrest (by simp), readFields_none hempty] at hfields
  exact hfields

/-! ### The whole header -/

namespace Message

/-- The request that the handlers get. -/
def request (m : Message) (content : List Char) : Request where
  method := m.method
  path := m.path
  http_version := m.version
  header := m.fields
  content := { content, pos := m.head.length }

end Message

/-- The parts of the first line. -/
theorem firstLine_parts (m : Message) :
    let line := String.ofList (m.firstLine ++ ['\r'])
    let path_end := m.method.length + 1 + m.path.length
    find line ' ' 0 = some m.method.length ∧ find line ' ' (m.method.length + 1) = some path_end ∧
      find line '/' (path_end + 1) = some (path_end + 5) ∧
      part line 0 m.method.length = m.method ∧
      part line (m.method.length + 1) m.path.length = m.path ∧
      part line (path_end + 1) 4 = "HTTP" ∧
      part line (path_end + 6) (posSub (some line.length) (path_end + 7) line.length) = m.version := by
  intro line path_end
  -- The line from each of its parts on.
  let fromVersion := m.version.toList ++ ['\r']
  let fromHttp := "HTTP".toList ++ '/' :: fromVersion
  let fromPath := m.path.toList ++ ' ' :: fromHttp
  have hline : line.toList = m.method.toList ++ ' ' :: fromPath := by
    show (String.ofList _).toList = _
    rw [String.toList_ofList]
    simp [Message.firstLine, fromPath, fromHttp, fromVersion]
  have hmethod : m.method.toList.length = m.method.length := String.length_toList
  have hpath : m.path.toList.length = m.path.length := String.length_toList
  have hversion : m.version.toList.length = m.version.length := String.length_toList
  have hdropPath : line.toList.drop (m.method.length + 1) = fromPath := by
    rw [hline, List.append_cons]
    exact List.drop_left' (by rw [List.length_append, hmethod]; rfl)
  have hdropHttp : line.toList.drop (path_end + 1) = fromHttp := by
    have hsum : path_end + 1 = m.method.length + 1 + (m.path.length + 1) := by omega
    rw [hsum, ← List.drop_drop, hdropPath]
    show (m.path.toList ++ ' ' :: fromHttp).drop _ = _
    rw [List.append_cons]
    exact List.drop_left' (by rw [List.length_append, hpath]; rfl)
  have hdropVersion : line.toList.drop (path_end + 6) = fromVersion := by
    have hsum : path_end + 6 = path_end + 1 + 5 := by omega
    rw [hsum, ← List.drop_drop, hdropHttp]
    rfl
  have hlength : line.length = path_end + 7 + m.version.length := by
    rw [← String.length_toList, hline]
    simp only [fromPath, fromHttp, fromVersion, List.length_append, List.length_cons,
      List.length_nil, hmethod, hpath, hversion, String.length_toList]
    show m.method.length + (m.path.length + (4 + (m.version.length + (0 + 1) + 1) + 1) + 1) = _
    omega
  have hpart : ∀ {pos n : Nat} {it after : List Char}, line.toList.drop pos = it ++ after →
      it.length = n → part line pos n = String.ofList it := by
    intro pos n it after h hn
    unfold part
    rw [h, ← hn, List.take_left]
  refine ⟨?_, ?_, ?_, ?_, ?_, ?_, ?_⟩
  · rw [find_of_split hline fun h => (m.method_solid _ h).1 rfl, hmethod]
  · rw [find_of_drop hdropPath fun h => (m.path_solid _ h).1 rfl, hpath]
  · rw [find_of_drop hdropHttp (by decide)]
    rfl
  · rw [hpart (by rw [List.drop_zero, hline]) hmethod, String.ofList_toList]
  · rw [hpart hdropPath hpath, String.ofList_toList]
  · exact (hpart hdropHttp rfl).trans String.ofList_toList
  · have hn : m.version.toList.length = posSub (some line.length) (path_end + 7) line.length := by
      show _ = if path_end + 7 ≤ line.length then line.length - (path_end + 7) else line.length
      rw [if_pos (by omega), hversion]
      omega
    rw [hpart hdropVersion hn, String.ofList_toList]

/-- The request after the first line. -/
def Message.started (m : Message) (buffer : List Char) : Request where
  method := m.method
  path := m.path
  http_version := m.version
  content := { content := buffer, pos := m.firstLine.length + 2 }

theorem Message.fieldLines (m : Message) :
    ∀ l ∈ m.fields.map (fun f => (Message.fieldLine f, f)), FieldLine l.1 l.2 := by
  intro l hl
  obtain ⟨f, hf, rfl⟩ := List.mem_map.mp hl
  exact fieldLine_message (m.fields_line f hf)

/-- The first line is taken apart, and the next line is read. -/
theorem parse_request_started (m : Message) {buffer rest : List Char}
    (h : buffer = m.firstLine ++ '\r' :: '\n' :: rest) (n : Nat) :
    ∃ line, parse_request n { content := { content := buffer, pos := 0 } }
      = (readFields n { m.started buffer with content := (getline (m.started buffer).content line).1 }
          (getline (m.started buffer).content line).2).map (true, ·) := by
  let content : IStream := { content := buffer, pos := 0 }
  have hfirst : getline content ""
      = ({ content with pos := m.firstLine.length + 2 }, String.ofList (m.firstLine ++ ['\r'])) := by
    rw [getline_line (show content.good = true from rfl) (by rw [← h]; rfl) (m.lines_line _ List.mem_cons_self).2]
    show ({ content with pos := 0 + (m.firstLine.length + 2) }, _) = _
    rw [Nat.zero_add]
  obtain ⟨hmethod_end, hpath_end, hprotocol_end, hmethod, hpath, hhttp, hversion⟩ :=
    firstLine_parts m
  let path_end := m.method.length + 1 + m.path.length
  have hpathLength : path_end - m.method.length - 1 = m.path.length := by omega
  have hhttpLength : path_end + 5 - path_end - 1 = 4 := by omega
  refine ⟨String.ofList (m.firstLine ++ ['\r']), ?_⟩
  unfold parse_request
  rw [hfirst]
  dsimp only
  rw [hmethod_end]
  dsimp only
  rw [hpath_end]
  dsimp only
  rw [hprotocol_end]
  dsimp only
  rw [hhttpLength, if_neg (not_not.mpr hhttp), hversion, hmethod, hpathLength, hpath]
  rfl

/-- For every request that a client can write, and all that has come behind its header, the
header is read back and the buffer is left at the content. -/
theorem parse_message (m : Message) (rest : List Char) (n : Nat) (hn : m.fields.length < n) :
    parse_request n { content := { content := m.head ++ rest, pos := 0 } }
      = some (true, m.request (m.head ++ rest)) := by
  let lines := m.fields.map (fun f => (Message.fieldLine f, f))
  have hlines : ∀ l ∈ lines, FieldLine l.1 l.2 := m.fieldLines
  have hfst : lines.map Prod.fst = m.fields.map Message.fieldLine := List.map_map
  have hsnd : lines.map Prod.snd = m.fields := by
    rw [List.map_map]
    exact List.map_id m.fields
  have hbuffer : m.head ++ rest
      = m.firstLine ++ '\r' :: '\n' :: (linesText (lines.map Prod.fst) ++ '\r' :: '\n' :: rest) := by
    rw [hfst]
    simp [Message.head, Message.lines, linesText]
  obtain ⟨line, hstarted⟩ := parse_request_started m hbuffer n
  have hdrop : (m.head ++ rest).drop (m.firstLine.length + 2)
      = linesText (lines.map Prod.fst) ++ '\r' :: '\n' :: rest := by
    rw [hbuffer, List.append_cons, List.append_cons]
    exact List.drop_left' (by simp)
  have hfields := readFields_lines hlines (m.started (m.head ++ rest)) rfl hdrop line
    (n := n) (by rw [List.length_map]; exact hn)
  have hhead : m.firstLine.length + 2 + (linesText (lines.map Prod.fst)).length + 2
      = m.head.length := by
    rw [hfst]
    simp only [Message.head, Message.lines, linesText, List.flatMap_cons, List.length_append,
      List.length_cons, List.length_nil]
  rw [hstarted, hfields, hsnd]
  unfold Message.request
  rw [← hhead]
  rfl

/-- For every request that a client can write, and all that has come behind its header: the first
delimiter is the end of the header, the header is read back with every field, and the buffer is
left at the content. -/
theorem header_round_trip (m : Message) (rest : List Char) (turns : Nat) :
    endOf crlf2 (m.head ++ rest) = some m.head.length ∧
      parse_request (m.fields.length + 1 + turns) { content := { content := m.head ++ rest, pos := 0 } }
        = some (true, m.request (m.head ++ rest)) :=
  ⟨m.endOf_head rest, parse_message m rest _ (by omega)⟩

/-! ### The end of the loop -/

/-- The stream is good, at the start of a line of the header or behind the empty line. In the
second case that is the line that was read. -/
structure Within (pre post : List Char) (content : IStream) (line : String) : Prop where
  buffer : content.content = pre ++ (crlf2 ++ post)
  good : content.good = true
  pos : content.pos ≤ pre.length + 2 ∨ content.pos = pre.length + 4 ∧ line = "\r"

/-- Before the empty line a `getline` moves on, and stays within the header. -/
theorem getline_within {pre post : List Char} {content : IStream} {line : String}
    (h : Within pre post content line) (hpos : content.pos ≤ pre.length + 2) :
    Within pre post (getline content line).1 (getline content line).2 ∧
      content.pos < (getline content line).1.pos := by
  let before := content.content.drop content.pos
  by_cases hlast : content.pos = pre.length + 2
  · have hdrop : before = [] ++ '\r' :: '\n' :: post := by
      show content.content.drop content.pos = _
      rw [h.buffer, hlast, ← List.drop_drop, List.drop_left]
      rfl
    rw [getline_line h.good hdrop (by simp)]
    refine ⟨⟨h.buffer, h.good, .inr ⟨?_, rfl⟩⟩, ?_⟩
    · show content.pos + (0 + 2) = _
      omega
    · show content.pos < content.pos + (0 + 2)
      omega
  · -- The newline before the empty line bounds the line that is read.
    have hnewline : before[pre.length + 1 - content.pos]? = some '\n' := by
      show (content.content.drop content.pos)[_]? = _
      rw [List.getElem?_drop, h.buffer, show content.pos + (pre.length + 1 - content.pos)
        = pre.length + 1 by omega, List.getElem?_append_right (by omega)]
      simp [crlf2]
    obtain ⟨l, rest, hsplit, hl⟩ := List.eq_append_cons_of_mem (List.mem_of_getElem? hnewline)
    have hlength : l.length ≤ pre.length + 1 - content.pos := by
      by_contra hlong
      rw [hsplit, List.getElem?_append_left (by omega)] at hnewline
      exact hl (List.mem_of_getElem? hnewline)
    have hread : getline content line
        = ({ content with pos := content.pos + l.length + 1 }, String.ofList l) := by
      unfold getline
      rw [if_pos h.good, IStream.getline_of_drop h.good hsplit hl]
    rw [hread]
    refine ⟨⟨h.buffer, h.good, .inl ?_⟩, ?_⟩
    · show content.pos + l.length + 1 ≤ _
      omega
    · show content.pos < content.pos + l.length + 1
      omega

/-- Each turn moves on in the header, so the loop ends. -/
theorem readFields_within {pre post : List Char} (request : Request) {line : String}
    (h : Within pre post request.content line) {n : Nat}
    (hn : pre.length + 4 - request.content.pos < n) :
    ∃ result, readFields n request line = some result ∧
      result.content.content = pre ++ (crlf2 ++ post) ∧ result.content.good = true ∧
        result.content.pos ≤ pre.length + 4 := by
  induction n generalizing request line with
  | zero => omega
  | succ n ih =>
      have hle : request.content.pos ≤ pre.length + 4 := by
        rcases h.pos with h | ⟨h, -⟩ <;> omega
      cases hcolon : find line ':' 0 with
      | none =>
          rw [readFields_none hcolon]
          exact ⟨request, rfl, h.buffer, h.good, hle⟩
      | some param_end =>
          have hpos : request.content.pos ≤ pre.length + 2 := by
            rcases h.pos with hpos | ⟨-, hempty⟩
            · exact hpos
            · have hnone : find "\r" ':' 0 = none := by decide
              rw [hempty, hnone] at hcolon
              exact absurd hcolon (by simp)
          obtain ⟨hnext, hlt⟩ := getline_within h hpos
          rw [readFields_succ hcolon]
          exact ih _ hnext (by show _ - (getline request.content line).1.pos < n; omega)

/-- On every buffer that has the delimiter, the parsing ends, and what is behind the first
delimiter is left for the content. -/
theorem parse_request_within {buffer : List Char} {e : Nat} (h : endOf crlf2 buffer = some e)
    {n : Nat} (hn : buffer.length < n) :
    ∃ ok request, parse_request n { content := { content := buffer, pos := 0 } } = some (ok, request) ∧
      request.content.content = buffer ∧ request.content.good = true ∧ request.content.pos ≤ e := by
  obtain ⟨pre, post, rfl, rfl⟩ := exists_split h
  have hstart : Within pre post { content := pre ++ (crlf2 ++ post), pos := 0 } "" :=
    ⟨rfl, rfl, .inl (Nat.zero_le _)⟩
  let read := getline { content := pre ++ (crlf2 ++ post), pos := 0 } ""
  have hfirst : Within pre post read.1 read.2 := (getline_within hstart (Nat.zero_le _)).1
  have hlength : (pre ++ (crlf2 ++ post)).length = pre.length + 4 + post.length := by
    rw [List.length_append, List.length_append, ← Nat.add_assoc]
    rfl
  have hpos : read.1.pos ≤ pre.length + 4 := by
    rcases hfirst.pos with h | ⟨h, -⟩ <;> omega
  have hfail : ∀ request : Request, request.content = read.1 →
      ∃ ok result, some (false, request) = some (ok, result) ∧
        result.content.content = pre ++ (crlf2 ++ post) ∧ result.content.good = true ∧
          result.content.pos ≤ pre.length + crlf2.length := by
    intro request hrequest
    refine ⟨false, request, rfl, ?_⟩
    rw [hrequest]
    exact ⟨hfirst.buffer, hfirst.good, hpos⟩
  unfold parse_request
  dsimp only
  split
  · exact hfail _ rfl
  · rename_i method_end hmethod
    split
    · exact hfail _ rfl
    · split
      · exact hfail _ rfl
      · split
        · exact hfail _ rfl
        · -- The first line has a blank, so it is not the empty one.
          have hbefore : read.1.pos ≤ pre.length + 2 := by
            rcases hfirst.pos with hpos | ⟨-, hline⟩
            · exact hpos
            · have hnone : find "\r" ' ' 0 = none := by decide
              rw [hline, hnone] at hmethod
              exact absurd hmethod (by simp)
          obtain ⟨hsecond, -⟩ := getline_within hfirst hbefore
          obtain ⟨result, hresult, hcontent, hgood, hend⟩ := readFields_within (n := n)
            { method := _, path := _, http_version := _, content := (getline read.1 read.2).1 }
            hsecond (by omega)
          rw [hresult]
          exact ⟨true, result, rfl, hcontent, hgood, hend⟩

/-- A stream that is not good keeps the line, so the loop has a colon to look at forever. -/
theorem readFields_forever {request : Request} (hgood : request.content.good = false)
    {line : String} {param_end : Nat} (h : find line ':' 0 = some param_end) (n : Nat) :
    readFields n request line = none := by
  induction n generalizing request with
  | zero => rfl
  | succ n ih =>
      have hread : getline request.content line = ({ request.content with failbit := true }, line) := by
        unfold getline
        rw [if_neg (by rw [hgood]; exact Bool.false_ne_true)]
      rw [readFields_succ h, hread]
      refine ih ?_
      show (!_ && !true) = false
      rw [Bool.not_true, Bool.and_false]

/-- More turns change nothing when the loop has ended. -/
theorem readFields_add {n : Nat} {request result : Request} {line : String}
    (h : readFields n request line = some result) (k : Nat) :
    readFields (n + k) request line = some result := by
  induction n generalizing request line with
  | zero => exact absurd h (by simp [readFields])
  | succ n ih =>
      rw [Nat.succ_add]
      cases hcolon : find line ':' 0 with
      | none =>
          rw [readFields_none hcolon] at h ⊢
          exact h
      | some param_end =>
          rw [readFields_succ hcolon] at h ⊢
          exact ih h

/-- A header that is cut off behind a colon keeps the loop going. -/
theorem parse_request_cut (m : Message) {cut : List Char} (hcolon : ':' ∈ cut)
    (hcut : '\n' ∉ cut) (n : Nat) :
    parse_request n { content := { content := linesText m.lines ++ cut, pos := 0 } } = none := by
  let fieldsText := linesText (m.fields.map Message.fieldLine)
  have hbuffer : linesText m.lines ++ cut = m.firstLine ++ '\r' :: '\n' :: (fieldsText ++ cut) := by
    simp [Message.lines, linesText, fieldsText]
  obtain ⟨line, hstarted⟩ := parse_request_started m hbuffer n
  have hdrop : (linesText m.lines ++ cut).drop (m.firstLine.length + 2)
      = linesText (m.fields.map Message.fieldLine) ++ cut := by
    rw [hbuffer, List.append_cons, List.append_cons]
    exact List.drop_left' (by simp)
  let lines := m.fields.map (fun f => (Message.fieldLine f, f))
  have hfst : lines.map Prod.fst = m.fields.map Message.fieldLine := List.map_map
  rw [← hfst] at hdrop
  obtain ⟨hrest, hfields⟩ := readFields_skip m.fieldLines
    (m.started (linesText m.lines ++ cut)) rfl hdrop line n
  have hgood : (readOn (m.started (linesText m.lines ++ cut)) lines).content.good = true := rfl
  generalize readOn (m.started (linesText m.lines ++ cut)) lines = request at hrest hfields hgood
  -- The end of the buffer ends the last line, and the stream is good no more.
  have hlast : (getline request.content line).1.good = false ∧
      (getline request.content line).2 = String.ofList cut := by
    have htake : cut.takeWhile (· != '\n') = cut := by
      rw [List.takeWhile_eq_self_iff]
      intro c hc
      rw [bne_iff_ne]
      rintro rfl
      exact hcut hc
    unfold getline IStream.getline
    rw [if_pos hgood, if_pos hgood, hrest]
    dsimp only
    rw [htake, if_neg (Nat.lt_irrefl _)]
    exact ⟨rfl, rfl⟩
  have hforever : readFields n { request with content := (getline request.content line).1 }
      (getline request.content line).2 = none := by
    obtain ⟨param_end, hfind⟩ : ∃ param_end,
        find (getline request.content line).2 ':' 0 = some param_end := by
      rw [hlast.2]
      refine Option.ne_none_iff_exists'.mp fun h => find_eq_none.mp h ?_
      rw [String.toList_ofList]
      exact hcolon
    exact readFields_forever hlast.1 hfind n
  replace hfields := hfields.trans hforever
  rw [hstarted, Option.map_eq_none_iff]
  by_contra hsome
  obtain ⟨result, hresult⟩ := Option.ne_none_iff_exists'.mp hsome
  rw [readFields_add hresult] at hfields
  exact absurd hfields (by simp)

/-- On every buffer that has the delimiter the parsing ends, after at most as many turns as there
are bytes, and reads nothing behind the delimiter. The delimiter is what ends it: on a header that
is cut off behind a colon no number of turns is enough. -/
theorem parse_request_ends :
    (∀ (buffer : List Char) (e n : Nat), endOf crlf2 buffer = some e → buffer.length < n →
      ∃ ok request, parse_request n { content := { content := buffer, pos := 0 } }
          = some (ok, request) ∧ request.content.content = buffer ∧ request.content.pos ≤ e) ∧
    ∀ (m : Message) (cut : List Char), ':' ∈ cut → '\n' ∉ cut → ∀ n,
      parse_request n { content := { content := linesText m.lines ++ cut, pos := 0 } } = none := by
  refine ⟨fun buffer e n he hn => ?_, fun m cut hcolon hcut n => parse_request_cut m hcolon hcut n⟩
  obtain ⟨ok, request, hparse, hbuffer, -, hpos⟩ := parse_request_within he hn
  exact ⟨ok, request, hparse, hbuffer, hpos⟩

theorem words_plain : Words "GET" "/a" [] := ⟨by decide, by decide, by decide⟩

/-- A request without fields. -/
def plainGet : Message := .ofWords words_plain []

/-- A buffer with a part of the content, and a header without its end. -/
theorem parse_request_ends_get :
    (∃ ok request, parse_request 100
        { content := { content := "GET /a HTTP/1.1\r\nHost: h\r\n\r\nrest".toList, pos := 0 } }
          = some (ok, request) ∧
        request.content.content = "GET /a HTTP/1.1\r\nHost: h\r\n\r\nrest".toList ∧
          request.content.pos ≤ 28) ∧
      parse_request 100
        { content := { content := linesText plainGet.lines ++ "Host: h".toList, pos := 0 } } = none :=
  ⟨parse_request_ends.1 _ 28 100 (by decide) (by decide),
    parse_request_ends.2 plainGet "Host: h".toList (by decide) (by decide) 100⟩

end WatchedAgent.Proofs.RequestText
