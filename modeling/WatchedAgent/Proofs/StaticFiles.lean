import WatchedAgent.Model.StaticFiles

/-!
# `WatchedAgent.Proofs.StaticFiles`: what the static file handler discloses

The response depends on the file system through two paths: `web_root/path`, and
`web_root/path/index.html` where the first is a directory. The handler does not look for
`..` in the request path, so the resolution can leave `web_root`.

Two file systems that hold the same below `web_root` agree on the places that `Known`
lists: those below `web_root`, and those that its own resolution passes or that are above
them. `Confined` says that the resolution of the request stays on such places and ends
below `web_root`. `discloses_nothing_iff` is the result, for both copies of the handler: on
all such pairs of file systems the response is the same, if and only if the request is
confined. `not_discloses_nothing_dotdot` is a request that climbs out.
-/

set_option autoImplicit false

namespace WatchedAgent.Proofs

open WatchedAgent.Lib
open WatchedAgent.Lib.FileTree
open WatchedAgent.Model
open WatchedAgent.Model.StaticFiles

/-- The path of the directory the handler serves. -/
def rootPath (webRoot : String) : String := Text.cstr (webRoot ++ "/")

/-- The path the handler looks up first. -/
def filePath (webRoot requestPath : String) : String :=
  Text.cstr (webRoot ++ "/" ++ requestPath)

/-- The path the handler looks up where the first is a directory. -/
def indexPath (webRoot requestPath : String) : String :=
  Text.cstr (webRoot ++ "/" ++ requestPath ++ "/index.html")

/-- Two file systems hold the same files and directories below `web_root`. -/
def SameBelow (cwd : Place) (webRoot : String) (fs fs' : FileSystem) : Prop :=
  fs.below cwd (rootPath webRoot) = fs'.below cwd (rootPath webRoot)

/-- The place is below `web_root`, or it is above a place that the resolution of `web_root`
passes. -/
def Known (cwd : Place) (webRoot : String) (p : Place) : Prop :=
  location cwd (rootPath webRoot) <+: p ∨ ∃ q ∈ trail cwd (rootPath webRoot), p <+: q

instance (cwd : Place) (webRoot : String) (p : Place) : Decidable (Known cwd webRoot p) :=
  inferInstanceAs (Decidable (_ ∨ ∃ q ∈ trail cwd (rootPath webRoot), p <+: q))

/-- The request names nothing, or its resolution passes known places only, and the
`index.html` there is below `web_root`. -/
def Confined (cwd : Place) (webRoot requestPath : String) : Prop :=
  filePath webRoot requestPath = "" ∨
    ((∀ p ∈ trail cwd (filePath webRoot requestPath), Known cwd webRoot p) ∧
      location cwd (rootPath webRoot) <+: location cwd (indexPath webRoot requestPath))

instance (cwd : Place) (webRoot requestPath : String) :
    Decidable (Confined cwd webRoot requestPath) :=
  inferInstanceAs (Decidable (_ ∨ (∀ p ∈ trail cwd (filePath webRoot requestPath), _) ∧ _))

/-! ### The paths -/

section Paths
variable (cwd : Place) (webRoot requestPath : String)

/-- A null character in `web_root` hides the request path. -/
theorem filePath_cases : filePath webRoot requestPath = rootPath webRoot ∨
    (rootPath webRoot = webRoot ++ "/" ∧
      filePath webRoot requestPath = webRoot ++ "/" ++ Text.cstr requestPath) := by
  unfold filePath rootPath
  rw [Text.cstr_append (webRoot ++ "/") requestPath]
  split
  · exact .inl rfl
  · rename_i hnull
    have hroot := Text.cstr_append (webRoot ++ "/") ""
    rw [if_neg hnull, String.append_empty] at hroot
    refine .inr ⟨?_, rfl⟩
    rw [hroot, show Text.cstr "" = "" from rfl, String.append_empty]

/-- A null character in the whole path hides the name of the index. -/
theorem indexPath_cases : indexPath webRoot requestPath = filePath webRoot requestPath ∨
    indexPath webRoot requestPath = filePath webRoot requestPath ++ "/" ++ "index.html" := by
  unfold indexPath filePath
  rw [Text.cstr_append (webRoot ++ "/" ++ requestPath) "/index.html"]
  split
  · exact .inl rfl
  · rename_i hnull
    have hfile := Text.cstr_append (webRoot ++ "/" ++ requestPath) ""
    rw [if_neg hnull, String.append_empty, show Text.cstr "" = "" from rfl,
      String.append_empty] at hfile
    have hname : Text.cstr "/index.html" = "/" ++ "index.html" := by decide
    right
    rw [hfile, hname, ← String.append_assoc]

variable {webRoot requestPath}

theorem components_index : components "index.html" = ["index.html"] := by decide

/-- The index of a directory is just below it. -/
theorem location_index {path : String} (hne : path ≠ "") :
    location cwd (path ++ "/" ++ "index.html") = location cwd path ++ ["index.html"] := by
  unfold location
  rw [components_append, final_append, components_index, start_append_of_ne cwd hne]
  rfl

/-- The index adds one place to the trail at most. -/
theorem mem_trail_indexPath (hne : filePath webRoot requestPath ≠ "") {q : Place} :
    q ∈ trail cwd (indexPath webRoot requestPath) ↔
      q ∈ trail cwd (filePath webRoot requestPath) ∨
        q = location cwd (indexPath webRoot requestPath) := by
  rcases indexPath_cases webRoot requestPath with h | h
  · rw [h]
    constructor
    · exact .inl
    · intro hq
      rcases hq with hq | hq
      · exact hq
      · rw [hq]
        exact location_mem_trail cwd _
  · rw [h, location_index cwd hne, mem_trail_append cwd hne, components_index, passes, passes,
      List.mem_cons, List.mem_singleton]
    -- The last component is passed where the first path ends, and after one more step.
    constructor
    · intro hq
      rcases hq with hq | hq | hq
      · exact .inl hq
      · rw [hq]
        exact .inl (location_mem_trail cwd _)
      · exact .inr hq
    · intro hq
      rcases hq with hq | hq
      · exact .inl hq
      · exact .inr (.inr hq)

/-- The request names something only if `web_root` does. -/
theorem stat_rootPath_isSome {fs : FileSystem}
    (h : (fs.stat cwd (filePath webRoot requestPath)).isSome = true) :
    (fs.stat cwd (rootPath webRoot)).isSome = true := by
  rcases filePath_cases webRoot requestPath with heq | ⟨hroot, heq⟩
  · rw [← heq]
    exact h
  · rw [heq] at h
    rw [hroot]
    exact fs.stat_isSome_of_append h

/-- Without a path for `web_root` there is none for the request. -/
theorem rootPath_ne_empty (h : filePath webRoot requestPath ≠ "") : rootPath webRoot ≠ "" := by
  rcases filePath_cases webRoot requestPath with heq | ⟨hroot, -⟩
  · rw [← heq]
    exact h
  · rw [hroot]
    simp

/-- The place of the index is the one of the request, or it is just below. -/
theorem location_prefix_indexPath (hne : filePath webRoot requestPath ≠ "") :
    location cwd (filePath webRoot requestPath)
      <+: location cwd (indexPath webRoot requestPath) := by
  rcases indexPath_cases webRoot requestPath with h | h
  · rw [h]
  · rw [h, location_index cwd hne]
    exact List.prefix_append _ ["index.html"]

/-- A request path without `..` among its components is confined. -/
theorem confined_of_no_dotdot (h : ".." ∉ components (Text.cstr requestPath)) :
    Confined cwd webRoot requestPath := by
  by_cases hne : filePath webRoot requestPath = ""
  · exact .inl hne
  have hindex := location_prefix_indexPath cwd hne
  rcases filePath_cases webRoot requestPath with heq | ⟨hroot, heq⟩
  · -- A null character in `web_root`: the request is `web_root` itself.
    rw [heq] at hindex
    refine .inr ⟨fun p hp => .inr ⟨p, ?_, List.prefix_refl p⟩, hindex⟩
    rw [← heq]
    exact hp
  · have hcomp : components (webRoot ++ "/") = components webRoot ++ [""] := by
      have happend := components_append webRoot ""
      rw [String.append_empty] at happend
      rw [happend]
      rfl
    have hlocation : location cwd (rootPath webRoot)
        = final (start cwd (webRoot ++ "/")) (components webRoot) := by
      rw [hroot]
      unfold location
      rw [hcomp, final_append]
      rfl
    -- The request path is resolved from the place of `web_root` on.
    have hbelow : ∀ p ∈ passes (location cwd (rootPath webRoot))
        (components (Text.cstr requestPath)), location cwd (rootPath webRoot) <+: p :=
      fun p hp => prefix_of_mem_passes h hp
    refine .inr ⟨fun p hp => ?_, ?_⟩
    · rw [heq] at hp
      unfold trail at hp
      rw [components_append, start_append, mem_passes_append, ← hlocation] at hp
      rcases hp with hp | hp
      · refine .inr ⟨p, ?_, List.prefix_refl p⟩
        rw [hroot]
        unfold trail
        rw [hcomp, mem_passes_append]
        exact .inl hp
      · exact .inl (hbelow p hp)
    · refine List.IsPrefix.trans ?_ hindex
      have hend := hbelow _ (final_mem_passes _ _)
      rw [heq]
      show _ <+: location cwd (webRoot ++ "/" ++ Text.cstr requestPath)
      unfold location at hend ⊢
      rw [components_append, start_append, final_append]
      rw [← hlocation]
      exact hend

end Paths

/-! ### The two answers the response depends on -/

section Response
variable (rt : Runtime) (send : List UInt8 → List UInt8) (cwd : Place)
  (webRoot requestPath : String) (ifNoneMatch : Option String) {fs fs' : FileSystem}

/-- Two file systems that answer the first path with the same kind, and the path that is
opened in the same way, get the same response. -/
theorem default_resource_congr
    (hkind : (fs.stat cwd (filePath webRoot requestPath)).map Node.isDir
      = (fs'.stat cwd (filePath webRoot requestPath)).map Node.isDir)
    (hindex : (fs.stat cwd (filePath webRoot requestPath)).map Node.isDir = some true →
      fs.stat cwd (indexPath webRoot requestPath) = fs'.stat cwd (indexPath webRoot requestPath))
    (hfile : (fs.stat cwd (filePath webRoot requestPath)).map Node.isDir = some false →
      fs.stat cwd (filePath webRoot requestPath) = fs'.stat cwd (filePath webRoot requestPath)) :
    default_resource rt send fs cwd webRoot requestPath ifNoneMatch
      = default_resource rt send fs' cwd webRoot requestPath ifNoneMatch := by
  have hserve : serve rt send fs cwd webRoot requestPath ifNoneMatch
      = serve rt send fs' cwd webRoot requestPath ifNoneMatch := by
    unfold filePath indexPath at *
    unfold serve sha256
    dsimp only
    cases hst : fs.stat cwd (Text.cstr (webRoot ++ "/" ++ requestPath)) with
    | none =>
        cases hst' : fs'.stat cwd (Text.cstr (webRoot ++ "/" ++ requestPath)) with
        | none => rfl
        | some st' => simp [hst, hst'] at hkind
    | some st =>
        cases hst' : fs'.stat cwd (Text.cstr (webRoot ++ "/" ++ requestPath)) with
        | none => simp [hst, hst'] at hkind
        | some st' =>
            rw [hst, hst', Option.map_some, Option.map_some, Option.some.injEq] at hkind
            dsimp only
            -- Only the path that is opened has to be the same, not just of the same kind.
            cases hdir : st.isDir with
            | true =>
                rw [← hkind, hdir]
                simp only [if_true]
                rw [hindex (by rw [hst, Option.map_some, hdir])]
            | false =>
                rw [← hkind, hdir]
                simp only [Bool.false_eq_true, if_false]
                rw [hfile (by rw [hst, Option.map_some, hdir])]
  unfold default_resource
  rw [hserve]

/-- A confined request gets the same response from two file systems that hold the same
below `web_root`. -/
theorem default_resource_eq_of_confined (h : Confined cwd webRoot requestPath)
    (hsame : SameBelow cwd webRoot fs fs') :
    default_resource rt send fs cwd webRoot requestPath ifNoneMatch
      = default_resource rt send fs' cwd webRoot requestPath ifNoneMatch := by
  by_cases hne : filePath webRoot requestPath = ""
  · -- The empty path names nothing, on any file system.
    have hnone : ∀ fs : FileSystem, fs.stat cwd (filePath webRoot requestPath) = none := by
      intro fs
      unfold Tree.stat
      exact if_pos hne
    apply default_resource_congr
    · rw [hnone, hnone]
    · rw [hnone]
      simp
    · rw [hnone]
      simp
  · obtain ⟨hknown, hindex⟩ := h.resolve_left hne
    cases hroot : fs.stat cwd (rootPath webRoot) with
    | none =>
        -- Neither file system has a `web_root`, so the request names nothing in both.
        have hnone : ∀ fs : FileSystem, fs.stat cwd (rootPath webRoot) = none →
            fs.stat cwd (filePath webRoot requestPath) = none := by
          intro fs hfs
          by_contra hsome
          have hroot := stat_rootPath_isSome cwd (Option.isSome_iff_ne_none.mpr hsome)
          rw [hfs] at hroot
          exact absurd hroot (by simp)
        have hroot' : fs'.stat cwd (rootPath webRoot) = none := by
          unfold SameBelow Tree.below at hsame
          rw [hroot] at hsame
          exact Option.map_eq_none_iff.mp hsame.symm
        apply default_resource_congr
        · rw [hnone fs hroot, hnone fs' hroot']
        · rw [hnone fs hroot]
          simp
        · rw [hnone fs hroot]
          simp
    | some n =>
        -- The known places have the same kinds, and those below the same contents.
        have hnode : ∀ p, location cwd (rootPath webRoot) <+: p → fs.node p = fs'.node p :=
          fun p hp => fs.node_eq_of_below hroot hsame hp
        have hkinds : ∀ p, Known cwd webRoot p → fs.kind p = fs'.kind p := by
          intro p hp
          rcases hp with hp | ⟨q, hq, hpq⟩
          · unfold Tree.kind
            rw [hnode p hp]
          · exact fs.kind_eq_of_below hroot hsame hq hpq
        have htrail : ∀ q ∈ trail cwd (filePath webRoot requestPath), fs.kind q = fs'.kind q :=
          fun q hq => hkinds q (hknown q hq)
        apply default_resource_congr
        · exact fs.stat_kind_congr htrail
        · intro _
          refine fs.stat_congr (fun q hq => ?_) (hnode _ hindex)
          rcases (mem_trail_indexPath cwd hne).mp hq with hq | hq
          · exact htrail q hq
          · unfold Tree.kind
            rw [hq, hnode _ hindex]
        · intro hfile
          refine fs.stat_congr htrail (hnode _ ?_)
          -- A known place that holds a file is below `web_root`.
          obtain ⟨f, hf, hisfile⟩ := Option.map_eq_some_iff.mp hfile
          have hplace := fs.node_of_stat hf
          rcases hknown _ (location_mem_trail cwd _) with hbelow | ⟨q, hq, hpq⟩
          · exact hbelow
          · exact fs.below_of_file hroot hq hpq hplace hisfile

/-- The status of a response. -/
def status (r : Response) : List Char := r.text.toList.take 12

theorem status_notModified (hash : String) :
    status (notModified hash) = "HTTP/1.1 304".toList := by
  unfold status notModified
  rw [String.append_assoc, String.toList_append, List.take_append_of_le_length (by decide)]
  decide

theorem status_found (hash : String) (length : Option Nat) (body : List UInt8) :
    status (found hash length body) = "HTTP/1.1 200".toList := by
  unfold status found
  simp only [String.append_assoc]
  rw [String.toList_append, List.take_append_of_le_length (by decide)]
  decide

theorem status_badRequest (what : String) :
    status (badRequest requestPath what) = "HTTP/1.1 400".toList := by
  unfold status badRequest
  simp only [String.append_assoc]
  rw [String.toList_append, List.take_append_of_le_length (by decide)]
  decide

/-- A request that names nothing is refused. -/
theorem status_of_none (h : fs.stat cwd (filePath webRoot requestPath) = none) :
    status (default_resource rt send fs cwd webRoot requestPath ifNoneMatch)
      = "HTTP/1.1 400".toList := by
  have hserve : serve rt send fs cwd webRoot requestPath ifNoneMatch
      = .error "file does not exist" := by
    unfold filePath at h
    unfold serve
    dsimp only
    rw [h]
  unfold default_resource
  rw [hserve]
  exact status_badRequest requestPath _

/-- A request for a directory whose index is a directory with an end is answered when the
end is at 0, and refused when the seek fails. -/
theorem status_of_dirs {d e : DirData}
    (hfile : fs.stat cwd (filePath webRoot requestPath) = some (.dir d))
    (hindex : fs.stat cwd (indexPath webRoot requestPath) = some (.dir e)) :
    (e.seekEnd = some 0 →
      status (default_resource rt send fs cwd webRoot requestPath ifNoneMatch)
        ≠ "HTTP/1.1 400".toList) ∧
    (e.seekEnd = none →
      status (default_resource rt send fs cwd webRoot requestPath ifNoneMatch)
        = "HTTP/1.1 400".toList) := by
  unfold filePath at hfile
  unfold indexPath at hindex
  constructor
  · -- A directory with its end at 0 hashes like an empty file.
    intro hend
    have hserve : serve rt send fs cwd webRoot requestPath ifNoneMatch
        = if ifNoneMatch = some ("\"" ++ rt.digest [] ++ "\"") then .ok (notModified (rt.digest []))
          else .ok (found (rt.digest []) (some 0) (send [])) := by
      unfold serve sha256
      dsimp only
      rw [hfile]
      simp only [Node.isDir, if_true]
      rw [hindex]
      simp [endOf, contentOf, hend, rt.vectorError_zero]
    unfold default_resource
    rw [hserve]
    by_cases hmatch : ifNoneMatch = some ("\"" ++ rt.digest [] ++ "\"")
    · rw [if_pos hmatch]
      show status (notModified (rt.digest [])) ≠ _
      rw [status_notModified]
      decide
    · rw [if_neg hmatch]
      show status (found (rt.digest []) (some 0) (send [])) ≠ _
      rw [status_found]
      decide
  · intro hend
    obtain ⟨what, hwhat⟩ := Option.isSome_iff_exists.mp rt.vectorError_npos
    have hserve : serve rt send fs cwd webRoot requestPath ifNoneMatch = .error what := by
      unfold serve sha256
      dsimp only
      rw [hfile]
      simp only [Node.isDir, if_true]
      rw [hindex]
      simp [endOf, hend, hwhat]
    unfold default_resource
    rw [hserve]
    exact status_badRequest requestPath what

end Response

/-! ### Requests that are not confined -/

section Converse
variable (cwd : Place) (webRoot requestPath : String)

/-- The places a request and `web_root` pass, and the places above them. -/
def places : List Place :=
  prefixesOf (trail cwd (indexPath webRoot requestPath) ++ trail cwd (rootPath webRoot))

variable {cwd webRoot requestPath}

theorem mem_places_of_index {q : Place} (h : q ∈ trail cwd (indexPath webRoot requestPath)) :
    q ∈ places cwd webRoot requestPath :=
  mem_prefixesOf.mpr ⟨q, List.mem_append_left _ h, List.prefix_refl q⟩

theorem mem_places_of_root {q : Place} (h : q ∈ trail cwd (rootPath webRoot)) :
    q ∈ places cwd webRoot requestPath :=
  mem_prefixesOf.mpr ⟨q, List.mem_append_right _ h, List.prefix_refl q⟩

/-- With a place, the places above it are there. -/
theorem mem_places_of_above {p q : Place} (hq : q ∈ places cwd webRoot requestPath)
    (hp : p <+: q) : p ∈ places cwd webRoot requestPath := by
  obtain ⟨r, hr, hqr⟩ := mem_prefixesOf.mp hq
  exact mem_prefixesOf.mpr ⟨r, hr, hp.trans hqr⟩

theorem nil_mem_places : [] ∈ places cwd webRoot requestPath :=
  mem_places_of_above (mem_places_of_root (location_mem_trail cwd _)) List.nil_prefix

variable (cwd webRoot requestPath) in
/-- The file system of these places, all directories, with the ends that `d` gives. -/
def dirsAt (d : Place → DirData) : FileSystem :=
  ofDirs (places cwd webRoot requestPath) d nil_mem_places
    (fun _ hp => mem_places_of_above hp (List.dropLast_prefix _))

/-- Ends for a file system where the directory at one place cannot be sought to its end. -/
def noSeekAt (p : Place) : Place → DirData :=
  fun q => if q = p then { seekEnd := none } else {}

theorem noSeekAt_self (p : Place) : noSeekAt p p = { seekEnd := none } := if_pos rfl

theorem noSeekAt_of_ne {p q : Place} (h : q ≠ p) : noSeekAt p q = {} := if_neg h

variable (cwd webRoot requestPath) in
/-- The same without a place and what is below it. -/
def dirsWithout (p : Place) (hp : p ≠ []) : FileSystem :=
  ofDirs ((places cwd webRoot requestPath).filter (fun q => ¬ p <+: q)) (fun _ => {})
    (by
      rw [List.mem_filter, decide_eq_true_iff]
      exact ⟨nil_mem_places, fun h => hp (List.prefix_nil.mp h)⟩)
    (by
      intro q hq
      rw [List.mem_filter, decide_eq_true_iff] at hq ⊢
      exact ⟨mem_places_of_above hq.1 (List.dropLast_prefix q),
        fun h => hq.2 (h.trans (List.dropLast_prefix q))⟩)

variable (cwd webRoot requestPath) in
theorem stat_dirsAt (d : Place → DirData) {path : String} (hne : path ≠ "")
    (h : ∀ q ∈ trail cwd path, q ∈ places cwd webRoot requestPath) :
    (dirsAt cwd webRoot requestPath d).stat cwd path = some (.dir (d (location cwd path))) :=
  stat_ofDirs hne h

section NotConfined
variable (rt : Runtime) (send : List UInt8 → List UInt8) (ifNoneMatch : Option String)
  (hne : filePath webRoot requestPath ≠ "")
include hne

theorem indexPath_ne_empty : indexPath webRoot requestPath ≠ "" := by
  rcases indexPath_cases webRoot requestPath with heq | heq
  · rw [heq]
    exact hne
  · rw [heq]
    simp

variable (cwd) in
/-- The file system of directories answers the request when the end of the index is at 0,
and refuses it when the seek fails. -/
theorem status_dirsAt (d : Place → DirData) :
    ((d (location cwd (indexPath webRoot requestPath))).seekEnd = some 0 →
      status (default_resource rt send (dirsAt cwd webRoot requestPath d) cwd webRoot requestPath
        ifNoneMatch) ≠ "HTTP/1.1 400".toList) ∧
    ((d (location cwd (indexPath webRoot requestPath))).seekEnd = none →
      status (default_resource rt send (dirsAt cwd webRoot requestPath d) cwd webRoot requestPath
        ifNoneMatch) = "HTTP/1.1 400".toList) := by
  have hfile := stat_dirsAt cwd webRoot requestPath d hne
    (fun q hq => mem_places_of_index ((mem_trail_indexPath cwd hne).mpr (.inl hq)))
  have hindex := stat_dirsAt cwd webRoot requestPath d
    (indexPath_ne_empty hne) (fun q hq => mem_places_of_index hq)
  exact status_of_dirs rt send cwd webRoot requestPath ifNoneMatch hfile hindex

/-- An index outside of `web_root` tells two file systems apart: one cannot seek to its
end. -/
theorem exists_disclosed_of_index
    (hout : ¬ location cwd (rootPath webRoot) <+: location cwd (indexPath webRoot requestPath)) :
    ∃ fs fs' : FileSystem, SameBelow cwd webRoot fs fs' ∧
      default_resource rt send fs cwd webRoot requestPath ifNoneMatch
        ≠ default_resource rt send fs' cwd webRoot requestPath ifNoneMatch := by
  have hroot : ∀ d : Place → DirData, (dirsAt cwd webRoot requestPath d).stat cwd (rootPath webRoot)
      = some (.dir (d (location cwd (rootPath webRoot)))) :=
    fun d => stat_dirsAt cwd webRoot requestPath d (rootPath_ne_empty hne)
      (fun q hq => mem_places_of_root hq)
  -- Where the index can be sought the request is answered, and else it is refused.
  have hanswered := (status_dirsAt cwd rt send ifNoneMatch hne (fun _ => {})).1 rfl
  have hrefused := (status_dirsAt cwd rt send ifNoneMatch hne
    (noSeekAt (location cwd (indexPath webRoot requestPath)))).2
    (by rw [noSeekAt_self])
  have hrootne :
      location cwd (rootPath webRoot) ≠ location cwd (indexPath webRoot requestPath) := by
    intro heq
    rw [heq] at hout
    exact hout (List.prefix_refl _)
  have hroot' := hroot (noSeekAt (location cwd (indexPath webRoot requestPath)))
  rw [noSeekAt_of_ne hrootne] at hroot'
  refine ⟨dirsAt cwd webRoot requestPath (fun _ => {}), dirsAt cwd webRoot requestPath
    (noSeekAt (location cwd (indexPath webRoot requestPath))),
    Tree.below_eq_of_node_eq _ (hroot _) hroot' ?_, ?_⟩
  · intro p hp
    have hpne : p ≠ location cwd (indexPath webRoot requestPath) := by
      intro heq
      rw [heq] at hp
      exact hout hp
    unfold dirsAt
    rw [node_ofDirs, node_ofDirs, noSeekAt_of_ne hpne]
  · intro heq
    rw [heq] at hanswered
    exact hanswered hrefused

/-- An unknown place on the way tells two file systems apart: one does not have it. -/
theorem exists_disclosed_of_trail {p : Place}
    (hp : p ∈ trail cwd (filePath webRoot requestPath)) (hunknown : ¬ Known cwd webRoot p) :
    ∃ fs fs' : FileSystem, SameBelow cwd webRoot fs fs' ∧
      default_resource rt send fs cwd webRoot requestPath ifNoneMatch
        ≠ default_resource rt send fs' cwd webRoot requestPath ifNoneMatch := by
  unfold Known at hunknown
  rw [not_or] at hunknown
  obtain ⟨hnotbelow, hnotabove⟩ := hunknown
  have hapart : ∀ q ∈ trail cwd (rootPath webRoot), ¬ p <+: q :=
    fun q hq hpq => hnotabove ⟨q, hq, hpq⟩
  have hnil : p ≠ [] := by
    intro hnil
    exact hapart _ (location_mem_trail cwd _) (hnil ▸ List.nil_prefix)
  have hroot : (dirsAt cwd webRoot requestPath (fun _ => {})).stat cwd (rootPath webRoot)
      = some (.dir {}) :=
    stat_dirsAt cwd webRoot requestPath _ (rootPath_ne_empty hne)
      (fun q hq => mem_places_of_root hq)
  -- Without `p` the path of `web_root` is still whole.
  have hroot' : (dirsWithout cwd webRoot requestPath p hnil).stat cwd (rootPath webRoot)
      = some (.dir {}) := by
    refine stat_ofDirs (rootPath_ne_empty hne) (fun q hq => ?_)
    rw [List.mem_filter, decide_eq_true_iff]
    exact ⟨mem_places_of_root hq, hapart q hq⟩
  have hgone : (dirsWithout cwd webRoot requestPath p hnil).node p = none := by
    unfold dirsWithout
    rw [node_ofDirs, if_neg]
    rw [List.mem_filter, decide_eq_true_iff]
    exact fun hmem => hmem.2 (List.prefix_refl p)
  have hanswered := (status_dirsAt cwd rt send ifNoneMatch hne (fun _ => {})).1 rfl
  have hrefused := status_of_none rt send cwd webRoot requestPath ifNoneMatch
    (Tree.stat_eq_none _ hp hgone)
  refine ⟨dirsAt cwd webRoot requestPath (fun _ => {}), dirsWithout cwd webRoot requestPath p hnil,
    Tree.below_eq_of_node_eq _ hroot hroot' ?_, ?_⟩
  · intro q hq
    -- Below `web_root` nothing is missing: a place there below `p` would make `p` known.
    have hkept : ¬ p <+: q := by
      intro hpq
      rcases List.prefix_or_prefix_of_prefix hpq hq with h | h
      · exact hapart _ (location_mem_trail cwd _) h
      · exact hnotbelow h
    unfold dirsAt dirsWithout
    rw [node_ofDirs, node_ofDirs]
    simp only [List.mem_filter, decide_eq_true_iff, hkept, not_false_eq_true, and_true]
  · intro heq
    rw [heq] at hanswered
    exact hanswered hrefused

end NotConfined

/-- A request that is not confined tells two file systems apart that hold the same below
`web_root`. -/
theorem exists_disclosed (cwd : Place) (webRoot requestPath : String) (rt : Runtime)
    (send : List UInt8 → List UInt8) (ifNoneMatch : Option String)
    (h : ¬ Confined cwd webRoot requestPath) :
    ∃ fs fs' : FileSystem, SameBelow cwd webRoot fs fs' ∧
      default_resource rt send fs cwd webRoot requestPath ifNoneMatch
        ≠ default_resource rt send fs' cwd webRoot requestPath ifNoneMatch := by
  unfold Confined at h
  rw [not_or, not_and_or] at h
  -- Some place on the way is unknown, or the index is outside.
  obtain ⟨hne, htrail | hout⟩ := h
  · rw [not_forall] at htrail
    obtain ⟨p, hp⟩ := htrail
    rw [not_forall] at hp
    obtain ⟨hp, hunknown⟩ := hp
    exact exists_disclosed_of_trail rt send ifNoneMatch hne hp hunknown
  · exact exists_disclosed_of_index rt send ifNoneMatch hne hout

end Converse

/-! ### Both copies of the handler -/

/-- A handler gives the same response on all file systems that hold the same below
`web_root`. -/
def DisclosesNothing (handler : FileSystem → Place → String → String → Option String → Response)
    (cwd : Place) (webRoot requestPath : String) (ifNoneMatch : Option String) : Prop :=
  ∀ fs fs' : FileSystem, SameBelow cwd webRoot fs fs' →
    handler fs cwd webRoot requestPath ifNoneMatch
      = handler fs' cwd webRoot requestPath ifNoneMatch

/-- For any function that sends the file, the handler discloses nothing exactly on confined
requests. -/
theorem default_resource_discloses_nothing_iff (rt : Runtime) (send : List UInt8 → List UInt8)
    (cwd : Place) (webRoot requestPath : String) (ifNoneMatch : Option String) :
    DisclosesNothing (default_resource rt send) cwd webRoot requestPath ifNoneMatch
      ↔ Confined cwd webRoot requestPath := by
  constructor
  · intro h
    by_contra hnot
    obtain ⟨fs, fs', hsame, hdiffer⟩ :=
      exists_disclosed cwd webRoot requestPath rt send ifNoneMatch hnot
    exact hdiffer (h fs fs' hsame)
  · intro h fs fs' hsame
    exact default_resource_eq_of_confined rt send cwd webRoot requestPath ifNoneMatch h hsame

/-- The HTTP and the HTTPS copy of the handler disclose nothing outside `web_root`, if and
only if the request is confined. -/
theorem discloses_nothing_iff (rt : Runtime) (ec : Nat → Bool) (cwd : Place)
    (webRoot requestPath : String) (ifNoneMatch : Option String) :
    (DisclosesNothing (http_default_resource rt ec) cwd webRoot requestPath ifNoneMatch
      ↔ Confined cwd webRoot requestPath) ∧
    (DisclosesNothing (https_default_resource rt ec) cwd webRoot requestPath ifNoneMatch
      ↔ Confined cwd webRoot requestPath) :=
  ⟨default_resource_discloses_nothing_iff rt (default_resource_send ec) cwd webRoot requestPath
      ifNoneMatch,
    default_resource_discloses_nothing_iff rt (defaults_resource_send ec) cwd webRoot requestPath
      ifNoneMatch⟩

/-- A runtime whose hash is the one of the empty input, the only one a handler computes
below. -/
def emptyRuntime : Runtime where
  digest := fun _ => "e3b0c44298fc1c149afbf4c8996fb92427ae41e4649b934ca495991b7852b855"
  vectorError := fun n =>
    if n ≤ 0x7FFFFFFFFFFFFFFF then none
    else some "cannot create std::vector larger than max_size()"
  vectorError_zero := rfl
  vectorError_npos := rfl

/-- With `web_root` "/www", the path "/../secret" tells whether there is a "/secret". -/
theorem not_discloses_nothing_dotdot :
    ¬ (DisclosesNothing (http_default_resource emptyRuntime (fun _ => false)) [] "/www"
        "/../secret" none ∧
      DisclosesNothing (https_default_resource emptyRuntime (fun _ => false)) [] "/www"
        "/../secret" none) := by
  intro h
  obtain ⟨fs, fs', hsame, hdiffer⟩ := exists_disclosed [] "/www" "/../secret"
    emptyRuntime (default_resource_send (fun _ => false)) none
    (by decide)
  exact hdiffer (h.1 fs fs' hsame)

end WatchedAgent.Proofs
