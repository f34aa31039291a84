import WatchedAgent.Lib.Run
import WatchedAgent.Proofs.ResponseText

/-!
# `WatchedAgent.Proofs.Revalidation`: clients that keep files

The file handler answers `304` to a client that sends the tag of the file in `If-None-Match`. Such
a client keeps the content of a path with its tag, asks with the tag, and shows what it has kept
when the answer is `304`. The files change in any way between the requests.

* `default_resource_of_current`: the tag decides whether the content is sent.
* `shows_current`: the client shows what a client without a memory would get, as long as no two
  contents have the same digest.
-/

set_option autoImplicit false

namespace WatchedAgent.Proofs.Revalidation

open WatchedAgent.Lib
open WatchedAgent.Lib.FileTree
open WatchedAgent.Lib.Run (Meets exec)
open WatchedAgent.Model
open WatchedAgent.Model.Http (parse_response_header case_insensitive_equal)
open WatchedAgent.Model.StaticFiles
open WatchedAgent.Proofs.ResponseText

/-! ### The file of a request -/

/-- The node that is served. A directory is replaced by its index. -/
def served (fs : FileSystem) (cwd : Place) (webRoot requestPath : String) :
    Option (Node DirData FileData) :=
  let path := webRoot ++ "/" ++ requestPath
  (fs.stat cwd (Text.cstr path)).bind (fun st =>
    fs.stat cwd (Text.cstr (if st.isDir then path ++ "/index.html" else path)))

/-- The content of the file. `none` where it cannot be read. -/
def current (rt : Runtime) (fs : FileSystem) (cwd : Place) (webRoot requestPath : String) :
    Option (List UInt8) :=
  match served fs cwd webRoot requestPath with
  | some (.file f) =>
      if f.readable = true ∧ rt.vectorError f.content.length = none then some f.content else none
  | _ => none

section
variable {rt : Runtime} (send : List UInt8 → List UInt8) {fs : FileSystem} {cwd : Place}
  {webRoot requestPath : String}

/-- The tag decides whether the content is sent. -/
theorem default_resource_of_current {body : List UInt8}
    (h : current rt fs cwd webRoot requestPath = some body) (ifNoneMatch : Option String) :
    default_resource rt send fs cwd webRoot requestPath ifNoneMatch
      = if ifNoneMatch = some (etag (rt.digest body)) then notModified (rt.digest body)
        else found (rt.digest body) (some body.length) (send body) := by
  unfold current at h
  split at h
  · rename_i f hserved
    obtain ⟨content, readable⟩ := f
    split at h
    · rename_i hread
      obtain ⟨hreadable, hvector⟩ := hread
      obtain rfl : readable = true := hreadable
      obtain rfl : content = body := Option.some.inj h
      obtain ⟨st, hst, hfile⟩ := Option.bind_eq_some_iff.mp hserved
      have hvector : rt.vectorError content.length = none := hvector
      have hhash : ∀ path, fs.stat cwd (Text.cstr path) = some (.file ⟨content, true⟩) →
          sha256 rt fs cwd path = .ok (rt.digest content) := by
        intro path hpath
        unfold sha256
        rw [hpath]
        simp [endOf, contentOf, hvector]
      unfold default_resource serve
      dsimp only at hst ⊢
      rw [hst]
      dsimp only
      rw [hfile]
      dsimp only
      rw [hhash _ hfile]
      dsimp only
      by_cases htag : ifNoneMatch = some (etag (rt.digest content))
      · rw [if_pos htag]
        unfold etag at htag
        rw [if_pos htag]
      · rw [if_neg htag]
        unfold etag at htag
        rw [if_neg htag]
        rfl
    · exact absurd h (by simp)
  · exact absurd h (by simp)

/-- Without a content there is an error, unless a directory has the name of the index. -/
theorem default_resource_of_not_current
    (hdir : ∀ d, served fs cwd webRoot requestPath ≠ some (.dir d))
    (h : current rt fs cwd webRoot requestPath = none) (ifNoneMatch : Option String) :
    ∃ what, default_resource rt send fs cwd webRoot requestPath ifNoneMatch
      = badRequest requestPath what := by
  unfold default_resource serve
  dsimp only
  cases hst : fs.stat cwd (Text.cstr (webRoot ++ "/" ++ requestPath)) with
  | none => exact ⟨_, rfl⟩
  | some st =>
      dsimp only
      cases hfile : fs.stat cwd (Text.cstr (if st.isDir then
          webRoot ++ "/" ++ requestPath ++ "/index.html" else webRoot ++ "/" ++ requestPath)) with
      | none => exact ⟨_, rfl⟩
      | some file =>
          have hserved : served fs cwd webRoot requestPath = some file := by
            unfold served
            dsimp only
            rw [hst]
            exact hfile
          -- The vector for the content throws.
          have herror : ∃ what, ∀ path, fs.stat cwd (Text.cstr path) = some file →
              sha256 rt fs cwd path = .error what := by
            cases file with
            | dir d => exact absurd hserved (hdir d)
            | file f =>
                obtain ⟨what, hwhat⟩ : ∃ what,
                    rt.vectorError ((endOf (some (.file f))).getD 0xFFFFFFFFFFFFFFFF) = some what := by
                  refine Option.isSome_iff_exists.mp ?_
                  cases hreadable : f.readable with
                  | false =>
                      simp only [endOf, hreadable]
                      exact rt.vectorError_npos
                  | true =>
                      unfold current at h
                      rw [hserved] at h
                      simpa [endOf, hreadable, Option.ne_none_iff_isSome] using h
                refine ⟨what, fun path hpath => ?_⟩
                unfold sha256
                rw [hpath]
                dsimp only
                rw [hwhat]
          obtain ⟨what, hwhat⟩ := herror
          dsimp only
          rw [hwhat _ hfile]
          exact ⟨what, rfl⟩

end

/-! ### The client -/

/-- What is kept of a path. -/
structure Kept where
  tag : String
  content : List Char

/-- The response to a request with the tag of what was kept: what is kept now, and what is
shown. -/
def receive (text : List Char) (kept : Option Kept) : Option Kept × Option (List Char) :=
  match parse_response_header (text.length + 1) { content := { content := text, pos := 0 } } with
  | none => (kept, none)
  | some response =>
      if response.status_code = "304 Not Modified" then (kept, kept.map Kept.content)
      else if response.status_code = "200 OK" then
        ((response.find "ETag").map (fun it => { tag := it.2, content := response.string }),
          some response.string)
      else (kept, none)

/-- The files, with what a client keeps and what it has shown. -/
structure World where
  fs : FileSystem
  kept : String → Option Kept := fun _ => none
  shown : List (Option (List Char)) := []

/-- The files change, the client asks for a path, or it forgets one. -/
inductive Event where
  | change (fs : FileSystem)
  | get (requestPath : String)
  | forget (requestPath : String)

section
variable (rt : Runtime) (ec : Nat → Bool) (cwd : Place) (webRoot : String)

/-- One step. -/
def step (w : World) : Event → World
  | .change fs => { w with fs }
  | .get requestPath =>
      let kept := w.kept requestPath
      let response := http_default_resource rt ec w.fs cwd webRoot requestPath (kept.map Kept.tag)
      let received := receive (sentText response) kept
      { w with
        kept := Function.update w.kept requestPath received.1
        shown := w.shown ++ [received.2] }
  | .forget requestPath => { w with kept := Function.update w.kept requestPath none }

/-- What a client without a memory shows: the content of the file at each request. -/
def plain : FileSystem → List Event → List (Option (List Char))
  | _, [] => []
  | _, .change fs :: events => plain fs events
  | fs, .get requestPath :: events =>
      (current rt fs cwd webRoot requestPath).map chars :: plain fs events
  | fs, .forget _ :: events => plain fs events

/-- The file of a request is no directory, and its content is one of those that are known. -/
def Serves (Known : List UInt8 → Prop) (w : World) : Event → Prop
  | .get requestPath => (∀ d, served w.fs cwd webRoot requestPath ≠ some (.dir d)) ∧
      ∀ body, current rt w.fs cwd webRoot requestPath = some body → Known body
  | _ => True

end

/-- The content and the tag are those of a content that is known. -/
def Backed (rt : Runtime) (Known : List UInt8 → Prop) (kept : Kept) : Prop :=
  ∃ body, Known body ∧ kept.tag = etag (rt.digest body) ∧ kept.content = chars body

/-- Everything that is kept is. -/
def Inv (rt : Runtime) (Known : List UInt8 → Prop) (kept : String → Option Kept) : Prop :=
  ∀ path k, kept path = some k → Backed rt Known k

theorem Inv.update {rt : Runtime} {Known : List UInt8 → Prop} {kept : String → Option Kept}
    (h : Inv rt Known kept) (requestPath : String) {new : Option Kept}
    (hnew : ∀ k, new = some k → Backed rt Known k) :
    Inv rt Known (Function.update kept requestPath new) := by
  intro path k hk
  by_cases hpath : path = requestPath
  · rw [hpath, Function.update_self] at hk
    exact hnew k hk
  · rw [Function.update_of_ne hpath] at hk
    exact h path k hk

/-! ### Requests -/

theorem etag_injective : Function.Injective etag := by
  intro a b h
  have htext := congrArg String.toList h
  exact String.toList_inj.mp (by simpa [etag] using htext)

/-- The client acts on the status. -/
theorem receive_says {text content : List Char} {status : String}
    {header : List (String × String)} (h : Says text status header content) (kept : Option Kept) :
    receive text kept
      = if status = "304 Not Modified" then (kept, kept.map Kept.content)
        else if status = "200 OK" then
          ((findField header "ETag").map (fun it => { tag := it.2, content }), some content)
        else (kept, none) := by
  obtain ⟨r, rfl, rfl, rfl, rfl⟩ := h
  have hfields : r.fields.length < r.text.length + 1 := by
    have hhead := r.fields_lt_head
    rw [Reply.text, List.length_append]
    omega
  have hstring : (r.response r.text).string = r.content := List.drop_left
  unfold receive
  rw [show parse_response_header (r.text.length + 1) { content := { content := r.text, pos := 0 } }
    = some (r.response r.text) from parse_reply r r.content hfields]
  dsimp only
  rw [hstring]
  rfl

section
variable {rt : Runtime} {ec : Nat → Bool} {cwd : Place} {webRoot : String}
  {Known : List UInt8 → Prop}

/-- A request shows the content of the file. -/
theorem inv_get (hec : ∀ k, ec k = false) (hdigest : ∀ body, '\n' ∉ (rt.digest body).toList)
    (hknown : ∀ a b, Known a → Known b → rt.digest a = rt.digest b → a = b) {w : World}
    (h : Inv rt Known w.kept) (requestPath : String)
    (hserves : Serves rt cwd webRoot Known w (.get requestPath)) :
    Inv rt Known (step rt ec cwd webRoot w (.get requestPath)).kept ∧
      (step rt ec cwd webRoot w (.get requestPath)).shown
        = w.shown ++ [(current rt w.fs cwd webRoot requestPath).map chars] := by
  obtain ⟨hdir, hcurrent⟩ := hserves
  let ifNoneMatch := (w.kept requestPath).map Kept.tag
  let response := http_default_resource rt ec w.fs cwd webRoot requestPath ifNoneMatch
  -- What is received decides both.
  have hreceived : ∀ kept shown, receive (sentText response) (w.kept requestPath) = (kept, shown) →
      (∀ k, kept = some k → Backed rt Known k) →
      shown = (current rt w.fs cwd webRoot requestPath).map chars →
      Inv rt Known (step rt ec cwd webRoot w (.get requestPath)).kept ∧
        (step rt ec cwd webRoot w (.get requestPath)).shown
          = w.shown ++ [(current rt w.fs cwd webRoot requestPath).map chars] := by
    intro kept shown hreceive hkept hshown
    have hstep : step rt ec cwd webRoot w (.get requestPath)
        = { w with
            kept := Function.update w.kept requestPath
              (receive (sentText response) (w.kept requestPath)).1
            shown := w.shown ++ [(receive (sentText response) (w.kept requestPath)).2] } := rfl
    rw [hstep, hreceive, ← hshown]
    exact ⟨h.update requestPath hkept, rfl⟩
  have hsame : ∀ k, w.kept requestPath = some k → Backed rt Known k := h requestPath
  cases hbody : current rt w.fs cwd webRoot requestPath with
  | none =>
      obtain ⟨what, hwhat⟩ :=
        default_resource_of_not_current (default_resource_send ec) hdir hbody ifNoneMatch
      have hreceive := receive_says (says_badRequest requestPath what) (w.kept requestPath)
      rw [← hwhat, if_neg (by decide), if_neg (by decide)] at hreceive
      rw [hbody] at hreceived
      exact hreceived _ _ hreceive hsame rfl
  | some body =>
      have hsend : default_resource_send ec body = body := sendLoop_of_no_error hec 0 body
      have hresponse :=
        default_resource_of_current (default_resource_send ec) hbody ifNoneMatch
      rw [hsend] at hresponse
      rw [hbody] at hreceived
      by_cases htag : ifNoneMatch = some (etag (rt.digest body))
      · -- The client has the content of a file with this digest.
        rw [if_pos htag] at hresponse
        have hreceive := receive_says (says_notModified (hdigest body)) (w.kept requestPath)
        rw [← hresponse, if_pos rfl] at hreceive
        obtain ⟨k, hk, hktag⟩ := Option.map_eq_some_iff.mp htag
        obtain ⟨body', hknown', htag', hcontent⟩ := hsame k hk
        obtain rfl : body' = body := hknown body' body hknown' (hcurrent body hbody)
          (etag_injective (htag'.symm.trans hktag))
        refine hreceived _ _ hreceive hsame ?_
        rw [hk, Option.map_some, hcontent]
        rfl
      · rw [if_neg htag] at hresponse
        have hreceive := receive_says (says_found (hdigest body) body) (w.kept requestPath)
        rw [← hresponse, if_neg (by decide), if_pos rfl] at hreceive
        refine hreceived _ _ hreceive ?_ rfl
        intro k hk
        obtain ⟨it, hit, rfl⟩ := Option.map_eq_some_iff.mp hk
        have hetag : findField [("Cache-Control", "max-age=86400"), ("ETag", etag (rt.digest body)),
            lengthPair body.length] "ETag" = some ("ETag", etag (rt.digest body)) := by
          simp [findField, case_insensitive_equal]
        rw [← Option.some.inj (hetag.symm.trans hit)]
        exact ⟨body, hcurrent body hbody, rfl, rfl⟩

/-- For every run, with any changes of the files between the requests: a client that keeps contents
with their tags shows what a client without a memory would show, as long as the digests of the
contents tell them apart. -/
theorem shows_current (hec : ∀ k, ec k = false) (hdigest : ∀ body, '\n' ∉ (rt.digest body).toList)
    (hknown : ∀ a b, Known a → Known b → rt.digest a = rt.digest b → a = b) (fs : FileSystem)
    (events : List Event)
    (hserves : Meets (step rt ec cwd webRoot) (Serves rt cwd webRoot Known) { fs } events) :
    (exec (step rt ec cwd webRoot) { fs } events).shown = plain rt cwd webRoot fs events := by
  -- The run from any state of the invariant.
  have hrun : ∀ (events : List Event) (w : World), Inv rt Known w.kept →
      Meets (step rt ec cwd webRoot) (Serves rt cwd webRoot Known) w events →
      (exec (step rt ec cwd webRoot) w events).shown
        = w.shown ++ plain rt cwd webRoot w.fs events := by
    intro events
    induction events with
    | nil =>
        intro w _ _
        exact (List.append_nil _).symm
    | cons e events ih =>
        rintro w hinv ⟨he, hevents⟩
        cases e with
        | change fs => exact ih { w with fs } hinv hevents
        | get requestPath =>
            obtain ⟨hinv', hshown⟩ := inv_get hec hdigest hknown hinv requestPath he
            have hrest := ih _ hinv' hevents
            rw [hshown, List.append_assoc] at hrest
            exact hrest
        | forget requestPath =>
            exact ih { w with kept := Function.update w.kept requestPath none }
              (hinv.update requestPath (by simp)) hevents
  have hstart : Inv rt Known (fun _ => none) := fun path k hk => absurd hk (by simp)
  exact hrun events { fs } hstart hserves

end

/-- A runtime with the digests of the empty content and of "abc", the only ones below. -/
def twoDigests : Runtime where
  digest := fun body =>
    if body = [] then "e3b0c44298fc1c149afbf4c8996fb92427ae41e4649b934ca495991b7852b855"
    else "ba7816bf8f01cfea414140de5dae2223b00361a396177a9cb410ff61f20015ad"
  vectorError := fun n =>
    if 0x7FFFFFFFFFFFFFFF < n then some "cannot create std::vector larger than max_size()"
    else none
  vectorError_zero := rfl
  vectorError_npos := rfl

/-- The file "a" in the root. -/
def oneFile (content : List UInt8) : FileSystem where
  node := fun p =>
    if p = [] then some (.dir {}) else if p = ["a"] then some (.file { content }) else none
  root := rfl
  parent := by
    intro p hne hsome
    rw [if_neg hne] at hsome
    by_cases hp : p = ["a"]
    · rw [hp]
      rfl
    · rw [if_neg hp] at hsome
      exact absurd hsome (by simp)
  finite := ⟨[[], ["a"]], fun p => by
    by_cases h : p = [] <;> by_cases h' : p = ["a"] <;> simp [h, h']⟩

theorem served_oneFile (content : List UInt8) :
    served (oneFile content) [] "." "/a" = some (.file { content }) := by
  have hstat : (oneFile content).stat [] (Text.cstr ("." ++ "/" ++ "/a"))
      = some (.file { content }) := rfl
  unfold served
  dsimp only
  rw [hstat, Option.bind_some]
  exact hstat

/-- The second request gets a `304`, and the file changes before the third one. -/
theorem shows_current_two_contents :
    (exec (step twoDigests (fun _ => false) [] ".") { fs := oneFile [] }
        [.get "/a", .get "/a", .change (oneFile [97, 98, 99]), .get "/a"]).shown
      = [some [], some [], some ['a', 'b', 'c']] := by
  have hserves : ∀ content, content = [] ∨ content = [97, 98, 99] → ∀ kept shown,
      Serves twoDigests [] "." (fun body => body = [] ∨ body = [97, 98, 99])
        { fs := oneFile content, kept, shown } (.get "/a") := by
    intro content hcontent kept shown
    refine ⟨fun d => ?_, fun body hbody => ?_⟩
    · rw [served_oneFile]
      simp
    · unfold current at hbody
      rw [served_oneFile] at hbody
      rcases hcontent with rfl | rfl <;> simp [twoDigests] at hbody <;> simp [← hbody]
  refine @shows_current twoDigests (fun _ => false) [] "."
    (fun body => body = [] ∨ body = [97, 98, 99]) (fun _ => rfl) ?_ ?_ (oneFile [])
    [.get "/a", .get "/a", .change (oneFile [97, 98, 99]), .get "/a"] ?_
  · intro body
    by_cases h : body = [] <;> simp [twoDigests, h]
  · rintro a b (rfl | rfl) (rfl | rfl) h <;> simp [twoDigests] at h ⊢
  · exact ⟨hserves [] (.inl rfl) _ _, hserves [] (.inl rfl) _ _, trivial,
      hserves [97, 98, 99] (.inr rfl) _ _, trivial⟩

end WatchedAgent.Proofs.Revalidation
