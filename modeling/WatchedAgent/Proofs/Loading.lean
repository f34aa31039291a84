import WatchedAgent.Model.Startup

/-!
# `WatchedAgent.Proofs.Loading`: what the agent loads at start-up

A directory loop throws exactly when it meets a visible file without a dot in its name, and
otherwise loads the visible files whose names end in its extension (`scan_eq`). The three
simple loops collect those names (`scan_append`). The loops over scripts do more with a
file, so `scripts_sortScript` and `loaded_collectors` say which ones they took.

`init_loads_iff` puts the five loops together.
-/

set_option autoImplicit false

namespace WatchedAgent.Proofs

open WatchedAgent.Lib
open WatchedAgent.Model
open WatchedAgent.Model.Startup

namespace Loading

/-- A regular file that is not hidden. -/
def isVisible (ent : Dirent) : Bool := !isHidden ent.name && ent.stat == some .regular

/-- The directory holds regular files and directories only. -/
def Ordinary (dir : Option (List Dirent)) : Prop :=
  ∀ ent ∈ dir.getD [], ∀ st, ent.stat = some st → st = .regular ∨ st = .directory

/-- Every visible file has a dot in its name. -/
def Dotted (dir : Option (List Dirent)) : Prop :=
  ∀ ent ∈ dir.getD [], isVisible ent = true → '.' ∈ ent.name.toList

instance (dir : Option (List Dirent)) : Decidable (Dotted dir) :=
  inferInstanceAs (Decidable (∀ ent ∈ dir.getD [], isVisible ent = true → '.' ∈ ent.name.toList))

/-- The visible files of a directory whose names end in `ext`. -/
def files (ext : String) (dir : Option (List Dirent)) : List String :=
  ((dir.getD []).filter
    (fun ent => isVisible ent && ext.toList.isSuffixOf ent.name.toList)).map Dirent.name

/-! ### The text after the last dot -/

theorem extension_of_split {name : String} {pre post : List Char}
    (h : name.toList = pre ++ '.' :: post) (hpost : '.' ∉ post) :
    extension name = some (String.ofList ('.' :: post)) := by
  have hle : pre.length ≤ name.length := by
    rw [← String.length_toList, h, List.length_append]
    omega
  unfold extension
  rw [Text.rfind_of_split h hpost, Option.bind_eq_bind, Option.bind_some]
  unfold Text.substr
  rw [if_pos hle, h, List.drop_left]

theorem extension_of_not_mem {name : String} (h : '.' ∉ name.toList) : extension name = none := by
  unfold extension
  rw [Text.rfind_eq_none.mpr h]
  rfl

/-- Two texts that are equal, each split at its last dot. -/
theorem split_unique {pre pre' post post' : List Char}
    (h : pre ++ '.' :: post = pre' ++ '.' :: post') (hpost : '.' ∉ post) (hpost' : '.' ∉ post') :
    post = post' := by
  have hpos : Text.rfind (String.ofList (pre ++ '.' :: post)) '.' = some pre.length :=
    Text.rfind_of_split String.toList_ofList hpost
  have hpos' : Text.rfind (String.ofList (pre ++ '.' :: post)) '.' = some pre'.length :=
    Text.rfind_of_split (String.toList_ofList.trans h) hpost'
  have hlen : pre.length = pre'.length := Option.some.inj (hpos.symm.trans hpos')
  exact (List.cons.inj (List.append_inj h hlen).2).2

/-- The text after the last dot is the extension exactly when the name ends in it. -/
theorem extension_eq_iff {name ext : String} {e x : List Char} (hext : ext.toList = '.' :: e)
    (hdot : '.' ∉ e) (h : extension name = some (String.ofList x)) :
    String.ofList x = ext ↔ ext.toList <:+ name.toList := by
  by_cases hmem : '.' ∈ name.toList
  · obtain ⟨pre, post, hsplit, hpost⟩ := Text.exists_last_split hmem
    have hx : x = '.' :: post := by
      rw [extension_of_split hsplit hpost] at h
      exact (String.ofList_injective (Option.some.inj h)).symm
    subst hx
    rw [hext, hsplit]
    constructor
    · rintro rfl
      obtain rfl : post = e := by simpa using hext
      exact List.suffix_append pre ('.' :: post)
    · rintro ⟨pre', heq⟩
      obtain rfl := split_unique heq hdot hpost
      rw [← hext, String.ofList_toList]
  · rw [extension_of_not_mem hmem] at h
    exact absurd h (by simp)

/-- The extensions the loops look for: a dot, and no other one. -/
structure IsExtension (ext : String) : Prop where
  split : ∃ e, ext.toList = '.' :: e ∧ '.' ∉ e

theorem isExtension_json : IsExtension ".json" := ⟨"json".toList, by decide, by decide⟩

theorem isExtension_so : IsExtension ".so" := ⟨"so".toList, by decide, by decide⟩

theorem isExtension_lua : IsExtension ".lua" := ⟨"lua".toList, by decide, by decide⟩

/-! ### One loop -/

section
variable {σ : Type} {ext : String} {load : σ → String → σ}

/-- A name the loops pass over: hidden, no longer there, or a directory. -/
theorem scanEntry_of_not_visible {ent : Dirent}
    (hstat : ∀ st, ent.stat = some st → st = .regular ∨ st = .directory)
    (h : isVisible ent = false) (s : σ) : scanEntry ext load s ent = some s := by
  unfold scanEntry
  cases hhid : isHidden ent.name with
  | true => rfl
  | false =>
      cases hst : ent.stat with
      | none => rfl
      | some st =>
          have hdir : st = .directory := by
            refine (hstat st hst).resolve_left fun hreg => ?_
            simp [isVisible, hhid, hst, hreg] at h
          rw [hdir]
          rfl

theorem scanEntry_of_visible (hext : IsExtension ext) {ent : Dirent} (h : isVisible ent = true)
    (s : σ) : scanEntry ext load s ent =
      if '.' ∈ ent.name.toList then
        some (if ext.toList.isSuffixOf ent.name.toList then load s ent.name else s)
      else none := by
  obtain ⟨e, he, hdot⟩ := hext.split
  obtain ⟨hhid, hst⟩ : isHidden ent.name = false ∧ ent.stat = some .regular := by
    simpa [isVisible] using h
  have hturn : scanEntry ext load s ent
      = (extension ent.name).bind (fun x => if x = ext then some (load s ent.name) else some s) := by
    unfold scanEntry
    rw [hhid, hst]
    rfl
  rw [hturn]
  split
  · rename_i hmem
    obtain ⟨pre, post, hsplit, hpost⟩ := Text.exists_last_split hmem
    have hx := extension_of_split hsplit hpost
    have hiff : String.ofList ('.' :: post) = ext
        ↔ ext.toList.isSuffixOf ent.name.toList = true :=
      (extension_eq_iff he hdot hx).trans List.isSuffixOf_iff_suffix.symm
    rw [hx, Option.bind_some]
    by_cases hsuf : ext.toList.isSuffixOf ent.name.toList = true
    · rw [if_pos hsuf, if_pos (hiff.mpr hsuf)]
    · rw [if_neg hsuf, if_neg (fun heq => hsuf (hiff.mp heq))]
  · rename_i hmem
    rw [extension_of_not_mem hmem]
    rfl

theorem dotted_cons (ent : Dirent) (es : List Dirent) : Dotted (some (ent :: es))
    ↔ (isVisible ent = true → '.' ∈ ent.name.toList) ∧ Dotted (some es) := by
  simp [Dotted]

theorem files_cons (ext : String) (ent : Dirent) (es : List Dirent) :
    files ext (some (ent :: es))
      = if isVisible ent && ext.toList.isSuffixOf ent.name.toList then
          ent.name :: files ext (some es)
        else files ext (some es) := by
  unfold files
  rw [Option.getD_some, Option.getD_some, List.filter_cons]
  split <;> rfl

/-- A loop throws when a visible file has no dot in its name. Else it loads the visible
files with the extension, in the order of the directory. -/
theorem scan_eq (hext : IsExtension ext) {dir : Option (List Dirent)} (hord : Ordinary dir)
    (s : σ) : scan ext load dir s
      = if Dotted dir then some ((files ext dir).foldl load s) else none := by
  cases dir with
  | none => rfl
  | some es =>
      show es.foldlM (scanEntry ext load) s = _
      induction es generalizing s with
      | nil => rfl
      | cons ent es ih =>
          have hrest : Ordinary (some es) :=
            fun ent hent => hord ent (List.mem_cons_of_mem _ hent)
          have hstat := hord ent List.mem_cons_self
          rw [List.foldlM_cons, files_cons]
          simp only [dotted_cons]
          cases hvis : isVisible ent with
          | false =>
              -- The entry is passed over, and it puts no condition on its name.
              rw [scanEntry_of_not_visible hstat hvis, Option.bind_eq_bind, Option.bind_some,
                ih _ hrest]
              simp
          | true =>
              rw [scanEntry_of_visible hext hvis]
              by_cases hdot : '.' ∈ ent.name.toList
              · rw [if_pos hdot, Option.bind_eq_bind, Option.bind_some, ih _ hrest]
                cases ext.toList.isSuffixOf ent.name.toList <;> simp [hdot]
              · rw [if_neg hdot]
                simp [hdot]

end

/-- Loading that only records the name. -/
theorem foldl_record {σ : Type} {get : σ → List String} {put : σ → String → σ}
    (hput : ∀ s f, get (put s f) = get s ++ [f]) (fs : List String) (s : σ) :
    get (fs.foldl put s) = get s ++ fs := by
  induction fs generalizing s with
  | nil => simp
  | cons f fs ih => rw [List.foldl_cons, ih, hput, List.append_assoc, List.singleton_append]

/-- Loading that leaves a field alone. -/
theorem foldl_unchanged {σ τ : Type} {get : σ → τ} {put : σ → String → σ}
    (hput : ∀ s f, get (put s f) = get s) (fs : List String) (s : σ) :
    get (fs.foldl put s) = get s := by
  induction fs generalizing s with
  | nil => rfl
  | cons f fs ih => rw [List.foldl_cons, ih, hput]

theorem scripts_sortScript (plugins : Plugins) (s : Services) (f : String) :
    (sortScript plugins s f).scripts = s.scripts ++ [f] := by
  unfold sortScript
  repeat' split
  all_goals rfl

theorem services_sortScript (plugins : Plugins) (s : Services) (f : String) :
    (sortScript plugins s f).services = s.services := by
  unfold sortScript
  repeat' split
  all_goals rfl

theorem libraries_sortScript (plugins : Plugins) (s : Services) (f : String) :
    (sortScript plugins s f).libraries = s.libraries := by
  unfold sortScript
  repeat' split
  all_goals rfl

/-! ### The Lua collectors -/

/-- The key of a script gives its name back. -/
theorem stem_append_lua {name : String} (h : ".lua".toList <:+ name.toList) :
    name.toList = (stem name).toList ++ ".lua".toList := by
  obtain ⟨pre, hpre⟩ := h
  have hsplit : name.toList = pre ++ '.' :: "lua".toList := hpre.symm
  unfold stem
  rw [Text.rfind_of_split hsplit (by decide), Option.getD_some, String.toList_ofList, hsplit,
    List.take_left]
  rfl

theorem stem_injective {a b : String} (ha : ".lua".toList <:+ a.toList)
    (hb : ".lua".toList <:+ b.toList) (h : stem a = stem b) : a = b := by
  apply String.toList_injective
  rw [stem_append_lua ha, stem_append_lua hb, h]

/-- The loop over the scripts takes those whose key is free, each once. -/
theorem scripts_loadCollector {fs : List String} (hfs : ∀ f ∈ fs, ".lua".toList <:+ f.toList)
    (keys : List String) (c : Collectors) (hc : c.collectors = keys ++ c.scripts.map stem)
    (hlua : ∀ f ∈ c.scripts, ".lua".toList <:+ f.toList) (hnodup : c.scripts.Nodup) :
    (fs.foldl loadCollector c).scripts.Nodup ∧
      ∀ f, f ∈ (fs.foldl loadCollector c).scripts
        ↔ f ∈ c.scripts ∨ (f ∈ fs ∧ stem f ∉ keys) := by
  induction fs generalizing c with
  | nil => simpa using hnodup
  | cons g fs ih =>
      have hg := hfs g List.mem_cons_self
      have hrest : ∀ f ∈ fs, ".lua".toList <:+ f.toList :=
        fun f hf => hfs f (List.mem_cons_of_mem g hf)
      -- The key is taken by a library, or by a script of the same name.
      have htaken : c.collectors.contains (stem g) = true ↔ stem g ∈ keys ∨ g ∈ c.scripts := by
        rw [List.contains_iff_mem, hc, List.mem_append, List.mem_map]
        constructor
        · rintro (h | ⟨f, hf, heq⟩)
          · exact .inl h
          · exact .inr (stem_injective (hlua f hf) hg heq ▸ hf)
        · rintro (h | h)
          · exact .inl h
          · exact .inr ⟨g, h, rfl⟩
      rw [List.foldl_cons]
      unfold loadCollector
      split
      · rename_i h
        obtain ⟨hn, hmem⟩ := ih hrest c hc hlua hnodup
        refine ⟨hn, fun f => (hmem f).trans ?_⟩
        constructor
        · rintro (hf | ⟨hf, hk⟩)
          · exact .inl hf
          · exact .inr ⟨List.mem_cons_of_mem g hf, hk⟩
        · rintro (hf | ⟨hf, hk⟩)
          · exact .inl hf
          · rcases List.mem_cons.mp hf with rfl | hf
            · exact .inl ((htaken.mp h).resolve_left hk)
            · exact .inr ⟨hf, hk⟩
      · rename_i h
        obtain ⟨hkey, hnew⟩ := not_or.mp (fun hor => h (htaken.mpr hor))
        obtain ⟨hn, hmem⟩ := ih hrest
          { c with scripts := c.scripts ++ [g], collectors := c.collectors ++ [stem g] }
          (by simp [hc])
          (fun f hf => by
            rcases List.mem_append.mp hf with hf | hf
            · exact hlua f hf
            · exact List.mem_singleton.mp hf ▸ hg)
          (List.nodup_append.mpr ⟨hnodup, by simp, by
            intro a ha b hb heq
            obtain rfl := List.mem_singleton.mp hb
            exact hnew (heq ▸ ha)⟩)
        refine ⟨hn, fun f => (hmem f).trans ?_⟩
        rw [List.mem_append, List.mem_singleton, List.mem_cons]
        constructor
        · rintro ((hf | rfl) | ⟨hf, hk⟩)
          · exact .inl hf
          · exact .inr ⟨.inl rfl, hkey⟩
          · exact .inr ⟨.inr hf, hk⟩
        · rintro (hf | ⟨rfl | hf, hk⟩)
          · exact .inl (.inl hf)
          · exact .inl (.inr rfl)
          · exact .inr ⟨hf, hk⟩

theorem libraries_loadCollector (c : Collectors) (f : String) :
    (loadCollector c f).libraries = c.libraries := by
  unfold loadCollector
  split <;> rfl

/-! ### The five loops -/

/-- The five directories in the order they are read. -/
def all (dirs : Directories) : List (Option (List Dirent)) :=
  [dirs.config_dir, dirs.services_cpp, dirs.services_lua, dirs.collectors_cpp,
    dirs.collectors_lua]

/-- The visible files with the right extension are loaded, and nothing else. A collector
script is loaded once, when no library has its key. -/
structure LoadsExactly (plugins : Plugins) (dirs : Directories) (s : Services)
    (c : Collectors) : Prop where
  config_dir : s.services = files ".json" dirs.config_dir
  services_cpp : s.libraries = files ".so" dirs.services_cpp
  services_lua : s.scripts = files ".lua" dirs.services_lua
  collectors_cpp : c.libraries = files ".so" dirs.collectors_cpp
  collectors_lua : ∀ f, f ∈ c.scripts ↔ f ∈ files ".lua" dirs.collectors_lua ∧
    stem f ∉ collectorFactory plugins (s.libraries ++ c.libraries)
  once : c.scripts.Nodup

/-- The services after the three loops, when none of them throws. -/
def servicesOf (plugins : Plugins) (dirs : Directories) : Services :=
  let s : Services := {
    services := files ".json" dirs.config_dir
    libraries := files ".so" dirs.services_cpp }
  (files ".lua" dirs.services_lua).foldl (sortScript plugins) (registerLibraries plugins s)

/-- The collectors after the two loops, when none of them throws. -/
def collectorsOf (plugins : Plugins) (dirs : Directories) (libraries : List String) :
    Collectors :=
  let libs := files ".so" dirs.collectors_cpp
  (files ".lua" dirs.collectors_lua).foldl loadCollector
    { libraries := libs, collectors := collectorFactory plugins (libraries ++ libs) }

theorem mem_files_suffix {ext f : String} {dir : Option (List Dirent)} (h : f ∈ files ext dir) :
    ext.toList <:+ f.toList := by
  obtain ⟨ent, hent, rfl⟩ := List.mem_map.mp h
  have htest := (List.mem_filter.mp hent).2
  rw [Bool.and_eq_true] at htest
  exact List.isSuffixOf_iff_suffix.mp htest.2

/-- A loop that adds each file to one list of the state adds them all. -/
theorem foldl_append {σ : Type} (put : List String → σ) {load : σ → String → σ}
    (hload : ∀ l file, load (put l) file = put (l ++ [file])) (fs l : List String) :
    fs.foldl load (put l) = put (l ++ fs) := by
  induction fs generalizing l with
  | nil => rw [List.foldl_nil, List.append_nil]
  | cons file fs ih => rw [List.foldl_cons, hload, ih, List.append_assoc, List.singleton_append]

theorem foldl_services (fs : List String) (s : Services) :
    fs.foldl (fun s file => { s with services := s.services ++ [file] }) s
      = { s with services := s.services ++ fs } :=
  foldl_append (fun l => { s with services := l }) (fun _ _ => rfl) fs s.services

theorem foldl_libraries (fs : List String) (s : Services) :
    fs.foldl (fun s file => { s with libraries := s.libraries ++ [file] }) s
      = { s with libraries := s.libraries ++ fs } :=
  foldl_append (fun l => { s with libraries := l }) (fun _ _ => rfl) fs s.libraries

theorem foldl_collector_libraries (fs : List String) (c : Collectors) :
    fs.foldl (fun c file => { c with libraries := c.libraries ++ [file] }) c
      = { c with libraries := c.libraries ++ fs } :=
  foldl_append (fun l => { c with libraries := l }) (fun _ _ => rfl) fs c.libraries

/-- Start-up throws when one of the loops does. -/
theorem init_eq (plugins : Plugins) (dirs : Directories) (hord : ∀ dir ∈ all dirs, Ordinary dir) :
    init plugins dirs = if ∀ dir ∈ all dirs, Dotted dir then
        some (servicesOf plugins dirs,
          collectorsOf plugins dirs (servicesOf plugins dirs).libraries)
      else none := by
  have h1 := hord dirs.config_dir (by simp [all])
  have h2 := hord dirs.services_cpp (by simp [all])
  have h3 := hord dirs.services_lua (by simp [all])
  have h4 := hord dirs.collectors_cpp (by simp [all])
  have h5 := hord dirs.collectors_lua (by simp [all])
  have hall : (∀ dir ∈ all dirs, Dotted dir) ↔ Dotted dirs.config_dir ∧ Dotted dirs.services_cpp ∧
      Dotted dirs.services_lua ∧ Dotted dirs.collectors_cpp ∧ Dotted dirs.collectors_lua := by
    simp [all]
  simp only [hall]
  unfold init collectorsManager loadConfig loadServicesCpp loadServicesLua loadCollectorsCpp
    loadCollectorsLua
  simp only [scan_eq isExtension_json h1, scan_eq isExtension_so h2, scan_eq isExtension_lua h3,
    scan_eq isExtension_so h4, scan_eq isExtension_lua h5]
  by_cases d1 : Dotted dirs.config_dir
  · by_cases d2 : Dotted dirs.services_cpp
    · by_cases d3 : Dotted dirs.services_lua
      · by_cases d4 : Dotted dirs.collectors_cpp
        · by_cases d5 : Dotted dirs.collectors_lua
          · simp [d1, d2, d3, d4, d5, foldl_services, foldl_libraries,
              foldl_collector_libraries, servicesOf, collectorsOf]
          · simp [d1, d2, d3, d4, d5]
        · simp [d1, d2, d3, d4]
      · simp [d1, d2, d3]
    · simp [d1, d2]
  · simp [d1]

theorem loadsExactly (plugins : Plugins) (dirs : Directories) :
    LoadsExactly plugins dirs (servicesOf plugins dirs)
      (collectorsOf plugins dirs (servicesOf plugins dirs).libraries) := by
  have hlibs : (collectorsOf plugins dirs (servicesOf plugins dirs).libraries).libraries
      = files ".so" dirs.collectors_cpp :=
    foldl_unchanged libraries_loadCollector _ _
  have hscripts := scripts_loadCollector
    (fun f (hf : f ∈ files ".lua" dirs.collectors_lua) => mem_files_suffix hf)
    (collectorFactory plugins ((servicesOf plugins dirs).libraries
      ++ files ".so" dirs.collectors_cpp))
    { libraries := files ".so" dirs.collectors_cpp,
      collectors := collectorFactory plugins ((servicesOf plugins dirs).libraries
        ++ files ".so" dirs.collectors_cpp) } (by simp) (by simp) (by simp)
  exact {
    config_dir := foldl_unchanged (services_sortScript plugins) _ _
    services_cpp := foldl_unchanged (libraries_sortScript plugins) _ _
    services_lua := foldl_record (scripts_sortScript plugins) _ _
    collectors_cpp := hlibs
    collectors_lua := fun f => by
      rw [hlibs]
      exact (hscripts.2 f).trans (by simp)
    once := hscripts.1 }

end Loading

open Loading

/-- Start-up handles all names, and loads exactly the files it should, if and only if every
visible file in the five directories has a dot in its name. -/
theorem init_loads_iff (plugins : Plugins) (dirs : Directories)
    (hord : ∀ dir ∈ all dirs, Ordinary dir) :
    (∃ s c, init plugins dirs = some (s, c) ∧ LoadsExactly plugins dirs s c)
      ↔ ∀ dir ∈ all dirs, Dotted dir := by
  rw [init_eq plugins dirs hord]
  constructor
  · rintro ⟨s, c, h, -⟩
    by_contra hnot
    rw [if_neg hnot] at h
    exact absurd h (by simp)
  · intro h
    rw [if_pos h]
    exact ⟨_, _, rfl, loadsExactly plugins dirs⟩

/-- Plugins that register nothing. -/
def idlePlugins : Plugins where
  library := fun _ => {}
  isType := fun _ _ => false

/-- Directories as a package installs them, with `extra` among the configurations. -/
def packaged (extra : List Dirent) : Directories where
  config_dir := some (⟨".", some .directory⟩ :: ⟨"web.json", some .regular⟩ :: extra)
  services_cpp := none
  services_lua := some [⟨"nginx.lua", some .regular⟩, ⟨"old", some .directory⟩]
  collectors_cpp := some [⟨"cpu.so", some .regular⟩]
  collectors_lua := some [⟨"cpu.lua", some .regular⟩, ⟨"notes.txt", some .regular⟩]

theorem ordinary_packaged {extra : List Dirent} (h : ∀ ent ∈ extra, ent.stat = some .regular) :
    ∀ dir ∈ all (packaged extra), Ordinary dir := by
  simp +contextual [all, packaged, Ordinary, h]

theorem init_loads_packaged :
    (∀ dir ∈ all (packaged []), Ordinary dir) ∧
      ∃ s c, init idlePlugins (packaged []) = some (s, c) ∧
        LoadsExactly idlePlugins (packaged []) s c :=
  ⟨ordinary_packaged (by simp),
    (init_loads_iff idlePlugins (packaged []) (ordinary_packaged (by simp))).mpr (by decide)⟩

/-- A file `README` among the service configurations stops the agent. -/
theorem init_readme_throws :
    (∀ dir ∈ all (packaged [⟨"README", some .regular⟩]), Ordinary dir) ∧
      init idlePlugins (packaged [⟨"README", some .regular⟩]) = none :=
  ⟨ordinary_packaged (by simp), by decide⟩

end WatchedAgent.Proofs
