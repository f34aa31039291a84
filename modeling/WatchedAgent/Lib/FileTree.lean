import Mathlib.Data.List.Basic
import Mathlib.Data.List.Infix

/-!
# `WatchedAgent.Lib.FileTree`: trees of files and path resolution

A file tree without links: each place is a directory, a regular file or nothing, the root
is a directory, and so is the parent of every place that holds something. A path is
resolved component by component, and every component but the last has to be looked up in a
directory.

* `stat`: what a path names, from a working directory.
* `trail`: the places the resolution of a path passes, whatever the tree holds.
* `location`: the place where it ends.
* `below`: what a tree holds at the place of a path and below it.

`stat_congr` says that two trees answer a path in the same way when they agree along the
trail. `ofDirs` builds the trees that tell two answers apart.
-/

set_option autoImplicit false

namespace WatchedAgent.Lib.FileTree

variable {δ φ : Type*}

/-- A place in a tree, as the names from the root down. -/
abbrev Place := List String

/-- A directory or a regular file, with the data the tree keeps of it. -/
inductive Node (δ φ : Type*) where
  | dir (d : δ)
  | file (f : φ)

/-- Is it a directory? -/
def Node.isDir : Node δ φ → Bool
  | dir _ => true
  | file _ => false

/-- A file tree. -/
structure Tree (δ φ : Type*) where
  node : Place → Option (Node δ φ)
  root : (node []).map Node.isDir = some true
  parent : ∀ p, p ≠ [] → (node p).isSome = true → (node p.dropLast).map Node.isDir = some true
  finite : ∃ places : List Place, ∀ p, (node p).isSome = true → p ∈ places

/-! ### Paths -/

/-- The parts of a text between its slashes. -/
def splitSlash : List Char → List (List Char)
  | [] => [[]]
  | c :: cs =>
      if c = '/' then [] :: splitSlash cs
      else
        -- Another character belongs to the first part of the rest.
        match splitSlash cs with
        | [] => [[c]]
        | part :: parts => (c :: part) :: parts

theorem splitSlash_cons (c : Char) (cs : List Char) : splitSlash (c :: cs)
    = if c = '/' then [] :: splitSlash cs
      else match splitSlash cs with
        | [] => [[c]]
        | part :: parts => (c :: part) :: parts := rfl

/-- The components of a path. -/
def components (path : String) : List String := (splitSlash path.toList).map String.ofList

theorem splitSlash_ne_nil (cs : List Char) : splitSlash cs ≠ [] := by
  cases cs with
  | nil => exact List.cons_ne_nil _ _
  | cons c cs =>
      rw [splitSlash_cons]
      split
      · exact List.cons_ne_nil _ _
      · split <;> exact List.cons_ne_nil _ _

theorem components_ne_nil (path : String) : components path ≠ [] := by
  unfold components
  rw [Ne, List.map_eq_nil_iff]
  exact splitSlash_ne_nil path.toList

/-- A slash separates the components of both sides. -/
theorem components_append (a b : String) :
    components (a ++ "/" ++ b) = components a ++ components b := by
  have key : ∀ cs ds : List Char,
      splitSlash (cs ++ '/' :: ds) = splitSlash cs ++ splitSlash ds := by
    -- Splitting is local: a slash starts a new part whatever stands before it.
    intro cs ds
    induction cs with
    | nil => simp [splitSlash]
    | cons c cs ih =>
        rw [List.cons_append, splitSlash_cons, splitSlash_cons, ih]
        split
        · rfl
        · cases hparts : splitSlash cs with
          | nil => exact absurd hparts (splitSlash_ne_nil cs)
          | cons part parts => rfl
  unfold components
  rw [show (a ++ "/" ++ b).toList = a.toList ++ '/' :: b.toList from by simp, key, List.map_append]

/-- The place one component leads to. -/
def stepTo (p : Place) (component : String) : Place :=
  if component = "" ∨ component = "." then p
  else if component = ".." then p.dropLast
  else p ++ [component]

/-- The place some components lead to. -/
def final (p : Place) (cs : List String) : Place := cs.foldl stepTo p

/-- The places some components lead through, the first and the last included. -/
def passes (p : Place) : List String → List Place
  | [] => [p]
  | c :: cs => p :: passes (stepTo p c) cs

/-- The place a path is resolved from. -/
def start (cwd : Place) (path : String) : Place :=
  if path.toList.head? = some '/' then [] else cwd

/-- The places a path leads through. -/
def trail (cwd : Place) (path : String) : List Place := passes (start cwd path) (components path)

/-- The place a path leads to. -/
def location (cwd : Place) (path : String) : Place := final (start cwd path) (components path)

@[simp]
theorem final_nil (p : Place) : final p [] = p := rfl

@[simp]
theorem final_cons (p : Place) (c : String) (cs : List String) :
    final p (c :: cs) = final (stepTo p c) cs := rfl

theorem final_append (p : Place) (cs ds : List String) :
    final p (cs ++ ds) = final (final p cs) ds := List.foldl_append

theorem final_mem_passes (p : Place) (cs : List String) : final p cs ∈ passes p cs := by
  induction cs generalizing p with
  | nil => exact List.mem_singleton_self p
  | cons c cs ih => exact List.mem_cons_of_mem p (ih (stepTo p c))

theorem mem_passes_self (p : Place) (cs : List String) : p ∈ passes p cs := by
  cases cs <;> exact List.mem_cons_self

theorem mem_passes_append {p q : Place} {cs ds : List String} :
    q ∈ passes p (cs ++ ds) ↔ q ∈ passes p cs ∨ q ∈ passes (final p cs) ds := by
  induction cs generalizing p with
  | nil =>
      rw [List.nil_append, final_nil, passes, List.mem_singleton]
      constructor
      · exact .inr
      · intro h
        rcases h with rfl | h
        · exact mem_passes_self q ds
        · exact h
  | cons c cs ih =>
      rw [List.cons_append, passes, passes, List.mem_cons, List.mem_cons, ih, final_cons, or_assoc]

/-- Without `..` the places are below the first one. -/
theorem prefix_of_mem_passes {p q : Place} {cs : List String} (hcs : ".." ∉ cs)
    (hq : q ∈ passes p cs) : p <+: q := by
  induction cs generalizing p with
  | nil =>
      rw [passes, List.mem_singleton] at hq
      rw [hq]
  | cons c cs ih =>
      rw [List.mem_cons, not_or] at hcs
      rw [passes, List.mem_cons] at hq
      -- One step stays, or goes one level down.
      have hstep : p <+: stepTo p c := by
        unfold stepTo
        rw [if_neg (Ne.symm hcs.1)]
        split
        · exact List.prefix_refl p
        · exact List.prefix_append p [c]
      rcases hq with hq | hq
      · rw [hq]
      · exact hstep.trans (ih hcs.2 hq)

theorem location_mem_trail (cwd : Place) (path : String) : location cwd path ∈ trail cwd path :=
  final_mem_passes _ _

/-- A path below another starts where that one does. -/
theorem start_append (cwd : Place) (a b : String) :
    start cwd (a ++ "/" ++ b) = start cwd (a ++ "/") := by
  unfold start
  cases ha : a.toList with
  | nil => simp [ha]
  | cons c cs => simp [ha]

/-- A path below one that is not empty starts where that one does. -/
theorem start_append_of_ne (cwd : Place) {a b : String} (ha : a ≠ "") :
    start cwd (a ++ "/" ++ b) = start cwd a := by
  unfold start
  cases hcs : a.toList with
  | nil => exact absurd (String.toList_eq_nil_iff.mp hcs) ha
  | cons c cs => simp [hcs]

/-- The trail of a path below another goes on from where that one ends. -/
theorem mem_trail_append (cwd : Place) {a b : String} (ha : a ≠ "") {q : Place} :
    q ∈ trail cwd (a ++ "/" ++ b)
      ↔ q ∈ trail cwd a ∨ q ∈ passes (location cwd a) (components b) := by
  unfold trail location
  rw [start_append_of_ne cwd ha, components_append, mem_passes_append]

/-! ### Resolution -/

namespace Tree
variable (t : Tree δ φ)

/-- The directory, file or nothing that some components lead to. -/
def resolve (p : Place) : List String → Option (Node δ φ)
  | [] => t.node p
  | c :: cs =>
      match t.node p with
      | some (.dir _) => resolve (stepTo p c) cs
      | _ => none

/-- `stat`: what a path names. The empty path names nothing. -/
def stat (cwd : Place) (path : String) : Option (Node δ φ) :=
  if path = "" then none else t.resolve (start cwd path) (components path)

/-- What the tree holds at the place of a path and below it, if the path names
something. -/
def below (cwd : Place) (path : String) : Option (Place → Option (Node δ φ)) :=
  (t.stat cwd path).map (fun _ q => t.node (location cwd path ++ q))

/-- The directory, or the file, at a place. -/
def kind (p : Place) : Option Bool := (t.node p).map Node.isDir

/-- Above a place that holds something there are directories. -/
theorem kind_of_prefix {p q : Place} (hq : (t.node q).isSome = true) (hp : p <+: q)
    (hne : p ≠ q) : t.kind p = some true := by
  obtain ⟨suffix, rfl⟩ := hp
  -- Go up one level at a time, from the place that holds something.
  induction suffix using List.reverseRecOn with
  | nil => exact absurd (List.append_nil p).symm hne
  | append_singleton suffix c ih =>
      have hparent := t.parent (p ++ (suffix ++ [c])) (by simp) hq
      rw [← List.append_assoc, List.dropLast_concat] at hparent
      by_cases hnil : suffix = []
      · rw [hnil, List.append_nil] at hparent
        exact hparent
      · refine ih ?_ (by simpa using hnil)
        rw [Option.map_eq_some_iff] at hparent
        obtain ⟨n, hn, -⟩ := hparent
        rw [hn]
        rfl

/-- Resolving two groups of components, one after the other. -/
theorem resolve_append (p : Place) (cs ds : List String) :
    t.resolve p (cs ++ ds) = (t.resolve p cs).bind (fun _ => t.resolve (final p cs) ds) := by
  induction cs generalizing p with
  | nil =>
      rw [List.nil_append, final_nil, resolve]
      cases hnode : t.node p with
      | some n => rfl
      | none =>
          cases ds with
          | nil => exact hnode
          | cons d ds =>
              rw [resolve, hnode]
              rfl
  | cons c cs ih =>
      rw [List.cons_append, resolve, resolve, final_cons]
      split
      · exact ih (stepTo p c)
      · rfl

/-- A place on the way that holds nothing ends the resolution. -/
theorem resolve_eq_none {p q : Place} {cs : List String} (hq : q ∈ passes p cs)
    (hnode : t.node q = none) : t.resolve p cs = none := by
  induction cs generalizing p with
  | nil =>
      rw [passes, List.mem_singleton] at hq
      rw [resolve, ← hq, hnode]
  | cons c cs ih =>
      rw [passes, List.mem_cons] at hq
      unfold resolve
      rcases hq with rfl | hq
      · rw [hnode]
      · split
        · exact ih hq
        · rfl

/-- A resolved path ends at what its last place holds, and passes directories before. -/
theorem passes_of_resolve {p : Place} {cs : List String} {n : Node δ φ}
    (h : t.resolve p cs = some n) :
    t.node (final p cs) = some n ∧ ∀ q ∈ passes p cs, t.kind q = some true ∨ q = final p cs := by
  induction cs generalizing p with
  | nil =>
      refine ⟨h, fun q hq => .inr ?_⟩
      exact List.mem_singleton.mp hq
  | cons c cs ih =>
      unfold resolve at h
      split at h
      · -- The place is a directory, so the rest is resolved from the next one.
        rename_i d hnode
        obtain ⟨hfinal, hpasses⟩ := ih h
        refine ⟨hfinal, fun q hq => ?_⟩
        rw [passes, List.mem_cons] at hq
        rcases hq with rfl | hq
        · left
          unfold kind
          rw [hnode]
          rfl
        · exact hpasses q hq
      · exact absurd h (by simp)

/-- Where all places on the way are directories, the resolution ends at the last one. -/
theorem resolve_of_dirs {p : Place} {cs : List String}
    (h : ∀ q ∈ passes p cs, t.kind q = some true) : t.resolve p cs = t.node (final p cs) := by
  induction cs generalizing p with
  | nil => rfl
  | cons c cs ih =>
      have hp := h p (mem_passes_self p (c :: cs))
      unfold kind at hp
      unfold resolve
      cases hnode : t.node p with
      | none => simp [hnode] at hp
      | some n =>
          cases n with
          | file f => simp [hnode, Node.isDir] at hp
          | dir d => exact ih (fun q hq => h q (List.mem_cons_of_mem p hq))

/-- Two trees with the same kinds along the way answer with the same kind. -/
theorem resolve_kind_congr {t' : Tree δ φ} {p : Place} {cs : List String}
    (h : ∀ q ∈ passes p cs, t.kind q = t'.kind q) :
    (t.resolve p cs).map Node.isDir = (t'.resolve p cs).map Node.isDir := by
  induction cs generalizing p with
  | nil => exact h p (List.mem_singleton_self p)
  | cons c cs ih =>
      have hp := h p (mem_passes_self p (c :: cs))
      have hrest := ih (p := stepTo p c) (fun q hq => h q (List.mem_cons_of_mem p hq))
      unfold kind at hp
      unfold resolve
      cases hnode : t.node p with
      | none =>
          cases hnode' : t'.node p with
          | none => rfl
          | some n' => simp [hnode, hnode'] at hp
      | some n =>
          cases hnode' : t'.node p with
          | none => simp [hnode, hnode'] at hp
          | some n' =>
              cases n with
              | dir d =>
                  cases n' with
                  | dir d' => exact hrest
                  | file f' => simp [hnode, hnode', Node.isDir] at hp
              | file f =>
                  cases n' with
                  | dir d' => simp [hnode, hnode', Node.isDir] at hp
                  | file f' => rfl

section Stat
variable {t' : Tree δ φ} {cwd : Place} {path : String}

/-- Two trees with the same kinds along the trail of a path answer with the same kind. -/
theorem stat_kind_congr (h : ∀ q ∈ trail cwd path, t.kind q = t'.kind q) :
    (t.stat cwd path).map Node.isDir = (t'.stat cwd path).map Node.isDir := by
  unfold stat
  split
  · rfl
  · exact t.resolve_kind_congr h

/-- A path that names something ends at its location. -/
theorem node_of_stat {n : Node δ φ} (h : t.stat cwd path = some n) :
    t.node (location cwd path) = some n := by
  unfold stat at h
  split at h
  · exact absurd h (by simp)
  · exact (t.passes_of_resolve h).1

/-- Two trees with the same kinds along the trail of a path, and with the same at its end,
give the same answer. -/
theorem stat_congr (h : ∀ q ∈ trail cwd path, t.kind q = t'.kind q)
    (hend : t.node (location cwd path) = t'.node (location cwd path)) :
    t.stat cwd path = t'.stat cwd path := by
  have hkind := t.stat_kind_congr h
  cases hstat : t.stat cwd path with
  | none =>
      rw [hstat] at hkind
      cases hstat' : t'.stat cwd path with
      | none => rfl
      | some n' => simp [hstat'] at hkind
  | some n =>
      rw [hstat] at hkind
      cases hstat' : t'.stat cwd path with
      | none => simp [hstat'] at hkind
      | some n' => rw [← t.node_of_stat hstat, ← t'.node_of_stat hstat', hend]

/-- A place on the trail that holds nothing means that the path names nothing. -/
theorem stat_eq_none {q : Place} (hq : q ∈ trail cwd path) (hnode : t.node q = none) :
    t.stat cwd path = none := by
  unfold stat
  split
  · rfl
  · exact t.resolve_eq_none hq hnode

/-- A path through directories names what its location holds. -/
theorem stat_of_dirs (hne : path ≠ "") (h : ∀ q ∈ trail cwd path, t.kind q = some true) :
    t.stat cwd path = t.node (location cwd path) := by
  unfold stat
  rw [if_neg hne]
  exact t.resolve_of_dirs h

/-- A path below `a` names something only if `a` names a directory. -/
theorem stat_isSome_of_append {a b : String} (h : (t.stat cwd (a ++ "/" ++ b)).isSome = true) :
    (t.stat cwd (a ++ "/")).isSome = true := by
  -- The final slash asks for one empty component more, which stays where it is.
  have hcomp : components (a ++ "/") = components a ++ [""] := by
    have hempty := components_append a ""
    rw [String.append_empty] at hempty
    exact hempty
  unfold stat at h ⊢
  rw [if_neg (by simp), components_append, start_append, resolve_append] at h
  rw [if_neg (by simp), hcomp, resolve_append]
  cases hfirst : t.resolve (start cwd (a ++ "/")) (components a) with
  | none => simp [hfirst] at h
  | some n =>
      rw [hfirst, Option.bind_some] at h
      rw [Option.bind_some]
      cases hb : components b with
      | nil => exact absurd hb (components_ne_nil b)
      | cons c cs =>
          rw [hb] at h
          have hfinal := (t.passes_of_resolve hfirst).1
          unfold resolve at h ⊢
          rw [hfinal] at h ⊢
          cases n with
          | file f => simp at h
          | dir d =>
              show (t.node (stepTo _ "")).isSome = true
              rw [show ∀ p, stepTo p "" = p from fun p => if_pos (.inl rfl), hfinal]
              rfl

end Stat

/-- The trail of a path that names something passes directories, and ends at the location. -/
theorem trail_of_stat {cwd : Place} {path : String} {n : Node δ φ} (h : t.stat cwd path = some n)
    {q : Place} (hq : q ∈ trail cwd path) : t.kind q = some true ∨ q = location cwd path := by
  unfold stat at h
  split at h
  · exact absurd h (by simp)
  · exact (t.passes_of_resolve h).2 q hq

/-- Above the trail of a path that names something there are directories. -/
theorem kind_of_prefix_trail {cwd : Place} {path : String} {n : Node δ φ}
    (h : t.stat cwd path = some n) {p q : Place} (hq : q ∈ trail cwd path) (hp : p <+: q)
    (hne : p ≠ q) : t.kind p = some true := by
  refine t.kind_of_prefix ?_ hp hne
  rcases t.trail_of_stat h hq with hdir | rfl
  · unfold kind at hdir
    cases hnode : t.node q with
    | none => simp [hnode] at hdir
    | some n => rfl
  · rw [t.node_of_stat h]
    rfl

/-- A place that holds a file, and that is above the trail of a path that names something,
is its location. -/
theorem below_of_file {cwd : Place} {path : String} {n f : Node δ φ}
    (h : t.stat cwd path = some n) {p q : Place} (hq : q ∈ trail cwd path) (hp : p <+: q)
    (hf : t.node p = some f) (hfile : f.isDir = false) : location cwd path <+: p := by
  have hnot : t.kind p ≠ some true := by
    unfold kind
    rw [hf, Option.map_some, hfile]
    simp
  -- Only the end of the trail can be a file, and the file lies on the trail itself.
  by_cases hpq : p = q
  · subst hpq
    rcases t.trail_of_stat h hq with hdir | rfl
    · exact absurd hdir hnot
    · exact List.prefix_refl _
  · exact absurd (t.kind_of_prefix_trail h hq hp hpq) hnot

/-- Two trees that hold the same below a path that names something have the same kinds along
its trail, and above every place on it. -/
theorem kind_eq_of_below {t' : Tree δ φ} {cwd : Place} {root : String} {n : Node δ φ}
    (hstat : t.stat cwd root = some n) (hbelow : t.below cwd root = t'.below cwd root)
    {p q : Place} (hq : q ∈ trail cwd root) (hp : p <+: q) : t.kind p = t'.kind p := by
  obtain ⟨n', hstat'⟩ : ∃ n', t'.stat cwd root = some n' := by
    cases hstat' : t'.stat cwd root with
    | none => simp [below, hstat, hstat'] at hbelow
    | some n' => exact ⟨n', rfl⟩
  -- On the trail both trees have directories, but for its end, where they agree.
  have hend : t.kind (location cwd root) = t'.kind (location cwd root) := by
    unfold below at hbelow
    rw [hstat, hstat', Option.map_some, Option.map_some, Option.some.injEq] at hbelow
    have hnil := congrFun hbelow []
    rw [List.append_nil] at hnil
    unfold kind
    rw [hnil]
  by_cases hpq : p = q
  · subst hpq
    rcases t.trail_of_stat hstat hq with hdir | rfl
    · rcases t'.trail_of_stat hstat' hq with hdir' | rfl
      · rw [hdir, hdir']
      · exact hend
    · exact hend
  · rw [t.kind_of_prefix_trail hstat hq hp hpq, t'.kind_of_prefix_trail hstat' hq hp hpq]

/-- The same, at the places at and below the path. -/
theorem node_eq_of_below {t' : Tree δ φ} {cwd : Place} {root : String} {n : Node δ φ}
    (hstat : t.stat cwd root = some n) (hbelow : t.below cwd root = t'.below cwd root)
    {p : Place} (hp : location cwd root <+: p) : t.node p = t'.node p := by
  obtain ⟨suffix, rfl⟩ := hp
  unfold below at hbelow
  rw [hstat] at hbelow
  cases hstat' : t'.stat cwd root with
  | none => simp [hstat'] at hbelow
  | some n' =>
      rw [hstat', Option.map_some, Option.map_some, Option.some.injEq] at hbelow
      exact congrFun hbelow suffix

/-- Two trees in which a path names something hold the same below it when they agree on the
places there. -/
theorem below_eq_of_node_eq {t' : Tree δ φ} {cwd : Place} {root : String} {n n' : Node δ φ}
    (hstat : t.stat cwd root = some n) (hstat' : t'.stat cwd root = some n')
    (h : ∀ p, location cwd root <+: p → t.node p = t'.node p) :
    t.below cwd root = t'.below cwd root := by
  unfold below
  rw [hstat, hstat', Option.map_some, Option.map_some]
  exact congrArg some (funext fun q => h _ (List.prefix_append _ q))

end Tree

/-! ### Trees of directories -/

/-- A tree of directories only, at the given places. -/
def ofDirs (places : List Place) (d : Place → δ) (hroot : [] ∈ places)
    (hparent : ∀ p ∈ places, p.dropLast ∈ places) : Tree δ φ where
  node p := if p ∈ places then some (.dir (d p)) else none
  root := by
    rw [if_pos hroot]
    rfl
  parent := by
    intro p _ hp
    have hmem : p ∈ places := by
      by_contra hno
      rw [if_neg hno] at hp
      exact absurd hp (by simp)
    rw [if_pos (hparent p hmem)]
    rfl
  finite := by
    refine ⟨places, fun p hp => ?_⟩
    by_contra hno
    rw [if_neg hno] at hp
    exact absurd hp (by simp)

section OfDirs
variable {places : List Place} {d : Place → δ} {hroot : [] ∈ places}
  {hparent : ∀ p ∈ places, p.dropLast ∈ places}

theorem node_ofDirs (p : Place) : (ofDirs (φ := φ) places d hroot hparent).node p
    = if p ∈ places then some (.dir (d p)) else none := rfl

/-- A path whose trail is in the tree names the directory at its location. -/
theorem stat_ofDirs {cwd : Place} {path : String} (hne : path ≠ "")
    (h : ∀ q ∈ trail cwd path, q ∈ places) :
    (ofDirs (φ := φ) places d hroot hparent).stat cwd path
      = some (.dir (d (location cwd path))) := by
  rw [Tree.stat_of_dirs _ hne (fun q hq => by
    unfold Tree.kind
    rw [node_ofDirs, if_pos (h q hq)]
    rfl), node_ofDirs, if_pos (h _ (location_mem_trail cwd path))]

end OfDirs

/-- The given places and all places above them. -/
def prefixesOf (places : List Place) : List Place := places.flatMap List.inits

theorem mem_prefixesOf {places : List Place} {p : Place} :
    p ∈ prefixesOf places ↔ ∃ q ∈ places, p <+: q := by
  unfold prefixesOf
  simp only [List.mem_flatMap, List.mem_inits]

end WatchedAgent.Lib.FileTree
