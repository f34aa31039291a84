import WatchedAgent.Lib.Run
import WatchedAgent.Proofs.ManagerOps
import WatchedAgent.Proofs.RequestText
import WatchedAgent.Proofs.RouteTable

/-!
# `WatchedAgent.Proofs.Advertised`: the advertised paths are served

The document lists a path for each ressource of each enabled collector
(`hasPath_doGetJson`), and each reference in it names one of its definitions
(`refs_doGetJson`), in every state.

Whether a request for the path reaches the ressource depends on the names. The server cuts the
path at its first blank. The route of the manager looks for the collector under the key of its
plugin, and the path has the name the plugin gives itself. `Good` says, for one step, that the
names agree. `served_of_good`: in a run of such steps every advertised path is served.
`not_served_renamed` is a plugin with another name than its file.
-/

set_option autoImplicit false

namespace WatchedAgent.Proofs

open WatchedAgent.Lib
open WatchedAgent.Model

namespace Advertised

open WatchedAgent.Model.Routes
open WatchedAgent.Model.Monitored
open RouteTable

/-! ### The document -/

/-- The collector publishes a path for the ressource. -/
def Publishes (c : RoutedCollector) (name : String) : Prop :=
  c.enable = true ∧ ∃ metric, (name, metric) ∈ c.ressources

/-- Every advertised path is served: its reference names a definition, some collector
publishes it, and a request for it is answered by the history of the ressource of each
collector that does. -/
def Served (s : State) : Prop :=
  ∀ e ∈ (doGetJson s).paths,
    (∃ t ∈ (doGetJson s).definitions, e.2.ref = "#/definitions/" ++ t) ∧
    (∃ c ∈ s.objects, ∃ name, Publishes c name ∧ e.1 = c.path name) ∧
    ∀ c ∈ s.objects, ∀ name, Publishes c name → e.1 = c.path name →
      s.answer e.1 = some (.history c.obj name none)

/-- The document lists the path. -/
def HasPath (doc : Document) (p : String) : Prop := ∃ item, (p, item) ∈ doc.paths

theorem hasPath_getDefinitions (c : RoutedCollector) (doc : Document) (p : String) :
    HasPath (getDefinitions c doc) p ↔ HasPath doc p := by
  unfold getDefinitions
  split <;> rfl

theorem hasPath_getPaths (c : RoutedCollector) (service : Option String) (doc : Document)
    (p : String) : HasPath (getPaths c service doc) p
      ↔ HasPath doc p ∨ ∃ name, Publishes c name ∧ p = c.path name := by
  unfold getPaths HasPath Publishes
  split
  · rename_i henable
    -- Each ressource writes its own path.
    refine (Run.exec_iff_or_mem (P := fun paths => ∃ item, (p, item) ∈ paths)
      (C := fun r => p = c.path r.1)
      (fun paths r => OrderedMap.exists_mem_insert_iff _ paths) doc.paths c.ressources).trans ?_
    refine or_congr_right ⟨?_, ?_⟩
    · rintro ⟨⟨name, metric⟩, hr, hp⟩
      exact ⟨name, ⟨henable, metric, hr⟩, hp⟩
    · rintro ⟨name, ⟨-, metric, hr⟩, hp⟩
      exact ⟨(name, metric), hr, hp⟩
  · rename_i henable
    constructor
    · exact .inl
    · rintro (h | ⟨name, ⟨hen, -⟩, -⟩)
      · exact h
      · exact absurd hen henable

theorem hasPath_getJson (service : Option String) (collectors : List (String × RoutedCollector))
    (doc : Document) (p : String) : HasPath (getJson service collectors doc) p
      ↔ HasPath doc p ∨ ∃ e ∈ collectors, ∃ name, Publishes e.2 name ∧ p = e.2.path name := by
  refine Run.exec_iff_or_mem (P := fun doc => HasPath doc p)
    (C := fun e : String × RoutedCollector => ∃ name, Publishes e.2 name ∧ p = e.2.path name)
    (fun doc e => ?_) doc collectors
  rw [hasPath_getPaths, hasPath_getDefinitions]

theorem mem_objects {s : State} {c : RoutedCollector} : c ∈ s.objects
    ↔ (∃ e ∈ s.systemCollectors, e.2 = c) ∨ ∃ i ∈ s.services, ∃ e ∈ i.collectors, e.2 = c := by
  simp only [State.objects, List.mem_append, List.mem_map, List.mem_flatMap]

/-- The document lists a path exactly when some collector publishes it. -/
theorem hasPath_doGetJson (s : State) (p : String) : HasPath (doGetJson s) p
    ↔ ∃ c ∈ s.objects, ∃ name, Publishes c name ∧ p = c.path name := by
  unfold doGetJson
  refine (Run.exec_iff_or_mem (P := fun doc => HasPath doc p)
    (C := fun i : HostService =>
      ∃ e ∈ i.collectors, ∃ name, Publishes e.2 name ∧ p = e.2.path name)
    (fun doc i => hasPath_getJson _ _ doc p) _ s.services).trans ?_
  have hsystem := hasPath_getJson none s.systemCollectors
    { definitions := ["services"], paths := [] } p
  have hempty : ¬ HasPath { definitions := ["services"], paths := [] } p := by
    rintro ⟨item, h⟩
    exact absurd h List.not_mem_nil
  constructor
  · rintro (h | ⟨i, hi, e, he, hpub⟩)
    · obtain ⟨e, he, hpub⟩ := (hsystem.mp h).resolve_left hempty
      exact ⟨e.2, mem_objects.mpr (.inl ⟨e, he, rfl⟩), hpub⟩
    · exact ⟨e.2, mem_objects.mpr (.inr ⟨i, hi, e, he, rfl⟩), hpub⟩
  · rintro ⟨c, hc, hpub⟩
    rcases mem_objects.mp hc with ⟨e, he, rfl⟩ | ⟨i, hi, e, he, rfl⟩
    · exact .inl (hsystem.mpr (.inr ⟨e, he, hpub⟩))
    · exact .inr ⟨i, hi, e, he, hpub⟩

/-- Each reference of the document names a definition. -/
def Refs (doc : Document) : Prop :=
  ∀ e ∈ doc.paths, ∃ t ∈ doc.definitions, e.2.ref = "#/definitions/" ++ t

theorem Refs.mono {doc : Document} (h : Refs doc) {definitions : List String}
    (hsub : ∀ t ∈ doc.definitions, t ∈ definitions) : Refs { doc with definitions } := by
  intro e he
  obtain ⟨t, ht, href⟩ := h e he
  exact ⟨t, hsub t ht, href⟩

/-- `getDefinitions` keeps the definitions, and has one for each ressource. -/
theorem definitions_getDefinitions (c : RoutedCollector) (doc : Document) :
    (∀ t ∈ doc.definitions, t ∈ (getDefinitions c doc).definitions) ∧
      (c.enable = true →
        ∀ r ∈ c.ressources, r.2.typeName ∈ (getDefinitions c doc).definitions) := by
  have hiff : ∀ t, t ∈ c.ressources.foldl (fun defs r =>
        if r.2.typeName ∈ defs then defs else defs ++ [r.2.typeName]) doc.definitions
      ↔ t ∈ doc.definitions ∨ ∃ r ∈ c.ressources, t = r.2.typeName := by
    intro t
    refine Run.exec_iff_or_mem (P := fun defs => t ∈ defs)
      (C := fun r : String × Metric => t = r.2.typeName) (fun defs r => ?_) doc.definitions
      c.ressources
    split
    · rename_i hmem
      exact ⟨.inl, fun h => h.elim id fun heq => heq ▸ hmem⟩
    · rw [List.mem_append, List.mem_singleton]
  unfold getDefinitions
  split
  · exact ⟨fun t ht => (hiff t).mpr (.inl ht), fun _ r hr => (hiff _).mpr (.inr ⟨r, hr, rfl⟩)⟩
  · rename_i henable
    exact ⟨fun t ht => ht, fun hen => absurd hen henable⟩

theorem refs_getJson (service : Option String) (collectors : List (String × RoutedCollector))
    {doc : Document} (h : Refs doc) : Refs (getJson service collectors doc) := by
  refine Run.exec_keeps (I := Refs) doc collectors (fun doc e _ hdoc => ?_) h
  obtain ⟨hold, hnew⟩ := definitions_getDefinitions e.2 doc
  have hdefs : Refs (getDefinitions e.2 doc) := by
    have hmono := hdoc.mono hold
    have hpaths : (getDefinitions e.2 doc).paths = doc.paths := by
      unfold getDefinitions
      split <;> rfl
    intro a ha
    exact hmono a (hpaths ▸ ha)
  show Refs (getPaths e.2 service (getDefinitions e.2 doc))
  unfold getPaths
  split
  · rename_i henable
    refine Run.exec_keeps (I := fun paths => Refs { getDefinitions e.2 doc with paths }) _
      e.2.ressources (fun paths r hr hpaths => ?_) hdefs
    intro a ha
    rcases OrderedMap.eq_or_mem_of_mem_insert ha with rfl | hmem
    · exact ⟨r.2.typeName, hnew henable r hr, rfl⟩
    · exact hpaths a hmem
  · exact hdefs

/-- In every state each reference of the document names one of its definitions. -/
theorem refs_doGetJson (s : State) : Refs (doGetJson s) := by
  unfold doGetJson
  refine Run.exec_keeps (I := Refs) _ s.services
    (fun doc i _ hdoc => refs_getJson _ i.collectors hdoc) ?_
  refine Refs.mono (refs_getJson _ s.systemCollectors ?_) fun t ht => List.mem_append_left _ ht
  intro e he
  exact absurd he List.not_mem_nil

/-! ### The condition -/

/-- The names of the ressources are parts of a path. -/
def Parts (c : RoutedCollector) : Prop := ∀ r ∈ c.ressources, IsPart r.1

instance (c : RoutedCollector) : Decidable (Parts c) :=
  inferInstanceAs (Decidable (∀ r ∈ c.ressources, IsPart r.1))

/-- The collectors that exist while the enhancers work on a service. -/
def live (w : State × HostService) : List RoutedCollector :=
  w.1.objects ++ w.2.collectors.map Prod.snd

/-- The plugin that `addCollector` builds a collector from, if it builds one. -/
def newPlugin (plugins : String → Option Plugin) (w : State × HostService) (name : String) :
    Option Plugin :=
  if (w.2.collectors.lookup name).isSome then none else plugins name

/-- A call of an enhancer on a service that is `stored` afterwards, or merged and destroyed.
The identifier is safe in an expression. A collector with routes before the one of the manager
stays, has its own route if it is enabled, and is apart from the others. A new base path moves
no collector across the route of the manager. -/
def CallOk (plugins : String → Option Plugin) (stored : Prop) (w : State × HostService) :
    EnhancerCall → Prop
  | .addCollector name =>
      ∀ plugin ∈ newPlugin plugins w name,
        IsIdentifier w.2.getID ∧
          (Before w.2.basePath → stored ∧ (plugin.enable = true → plugin.addsRoute = true) ∧
            IsIdentifier plugin.name ∧ Apart (live w) (w.1.construct plugin (some w.2)).2)
  | .updateBasePaths =>
      ∀ e ∈ w.2.collectors, e.2.basePath = w.2.basePath ∨
        (IsIdentifier w.2.getID ∧ ¬ Before w.2.basePath ∧ ¬ Before e.2.basePath)
  | _ => True

instance (plugins : String → Option Plugin) (stored : Prop) [Decidable stored]
    (w : State × HostService) : ∀ c, Decidable (CallOk plugins stored w c)
  | .addCollector name => inferInstanceAs (Decidable (∀ plugin ∈ newPlugin plugins w name, _))
  | .updateBasePaths => inferInstanceAs (Decidable (∀ e ∈ w.2.collectors, _ ∨ _))
  | .setter _ => inferInstanceAs (Decidable True)
  | .addLogMonitor _ _ => inferInstanceAs (Decidable True)

/-- The agent and the service after the calls of the enhancers. -/
def enhanced (s : State) (plugins : String → Option Plugin) (d : Service)
    (calls : List EnhancerCall) : State × HostService :=
  Run.exec (State.call plugins) (s, { toService := d }) calls

/-- The place of the stored service that `addService` merges into, if there is one. -/
def target (os : OsState) (s : State) (add : HostService) : Option Nat :=
  (s.services.findIdx? (fun i => add.equals i.toService)).or
    (s.services.findIdx? (fun i => i.needSocketFrom os add.toService))

/-- The service has an enabled collector that the route of the manager answers for. -/
def HasGeneric (i : HostService) : Prop :=
  ∃ e ∈ i.collectors, ¬ Direct e.2 ∧ e.2.enable = true

instance (i : HostService) : Decidable (HasGeneric i) :=
  inferInstanceAs (Decidable (∃ e ∈ i.collectors, ¬ Direct e.2 ∧ e.2.enable = true))

/-- A change of a stored service: with a collector that the route of the manager answers for
it keeps its identifier, and it takes the identifier of no later service with one. -/
def RenameOk (s : State) (k : Nat) (f : Service → Service) : Prop :=
  ∀ i ∈ s.services[k]?,
    (HasGeneric i → (f i.toService).getID = i.getID) ∧
      ∀ n ∈ s.services.drop (k + 1), HasGeneric n → (f i.toService).getID ≠ n.getID

instance (s : State) (k : Nat) (f : Service → Service) : Decidable (RenameOk s k f) :=
  inferInstanceAs (Decidable (∀ i ∈ s.services[k]?, _ ∧ ∀ n ∈ s.services.drop (k + 1), _))

/-- A service that is stored: an enabled collector that the route of the manager answers for
has the name of its plugin file, the base path of the service, and a service that no other one
with its identifier hides. -/
def StoredOk (s : State) (add : HostService) : Prop :=
  ∀ e ∈ add.collectors, Parts e.2 ∧
    (¬ Direct e.2 → e.2.enable = true →
      e.1 = e.2.name ∧ IsPart e.2.name ∧ e.2.basePath = add.basePath ∧
        ∀ i ∈ s.services, i.getID ≠ add.getID)

instance (s : State) (add : HostService) : Decidable (StoredOk s add) :=
  inferInstanceAs (Decidable (∀ e ∈ add.collectors, _ ∧ _))

/-- A step after which the names agree. -/
def Good (s : State) : Move → Prop
  | .system key plugin =>
      (s.systemCollectors.lookup key).isSome = true ∨
        ((plugin.enable = true → plugin.addsRoute = true) ∧ IsIdentifier plugin.name ∧
          Apart s.objects (s.construct plugin none).2 ∧ Parts (s.construct plugin none).2)
  | .load _ => True
  | .add os plugins d calls =>
      Run.Meets (State.call plugins)
          (CallOk plugins (target os s (enhanced s plugins d calls).2 = none))
          (s, { toService := d }) calls ∧
        (∀ k ∈ target os s (enhanced s plugins d calls).2,
          RenameOk s k (fun i => i.updateFrom os (enhanced s plugins d calls).2.toService)) ∧
        (target os s (enhanced s plugins d calls).2 = none →
          StoredOk s (enhanced s plugins d calls).2)
  | .update k op => RenameOk s k op.run
  | .addRessource _ name _ => IsPart name

instance (s : State) : ∀ move, Decidable (Good s move)
  | .system _ _ => inferInstanceAs (Decidable (_ ∨ _))
  | .load _ => inferInstanceAs (Decidable True)
  | .add _ _ _ _ => inferInstanceAs (Decidable (_ ∧ _ ∧ _))
  | .update k op => inferInstanceAs (Decidable (RenameOk s k op.run))
  | .addRessource _ name _ => inferInstanceAs (Decidable (IsPart name))

/-! ### The invariant -/

/-- The services and their collectors:

- `generic`: where the route of the manager answers, the names agree;
- `first`: no earlier service has the identifier of a service with such a collector. -/
structure Hosts (services : List HostService) : Prop where
  keys : ∀ i ∈ services, OrderedMap.Sorted i.collectors
  generic : ∀ i ∈ services, ∀ e ∈ i.collectors, ¬ Direct e.2 → e.2.enable = true →
    e.1 = e.2.name ∧ IsPart e.2.name ∧ e.2.basePath = i.basePath
  first : ∀ (j k : Nat) (n i : HostService), j < k → services[j]? = some n →
    services[k]? = some i → HasGeneric i → n.getID ≠ i.getID

/-- What good steps keep. -/
structure Inv (s : State) : Prop where
  routed : Routed s.resource s.objects s.next
  parts : ∀ c ∈ s.objects, Parts c
  system : ∀ e ∈ s.systemCollectors, e.2.haveService = false
  hosts : Hosts s.services

theorem inv_start : Inv start where
  routed := routed_start
  parts := by
    intro c hc
    exact absurd hc List.not_mem_nil
  system := by
    intro e he
    exact absurd he List.not_mem_nil
  hosts := {
    keys := by simp [start]
    generic := by simp [start]
    first := by simp [start] }

/-! ### What the invariant gives -/

/-- A path of a collector has no query. -/
theorem query_path {c : RoutedCollector} (hname : '?' ∉ (c.basePath ++ c.name).toList)
    {r : String} (hr : IsPart r) : query (c.path r) = none := by
  have hnot : '?' ∉ (c.path r).toList := by
    rw [toList_path]
    simp only [List.mem_append, List.mem_cons, not_or]
    exact ⟨hname, by decide, fun h => (hr '?' h).2.1 rfl, by decide, by decide⟩
  rw [query, Text.find_eq_none.mpr hnot]
  rfl

theorem question_not_mem {name : String} (h : IsIdentifier name) : '?' ∉ name.toList :=
  fun hmem => (h '?' hmem).1 (by decide)

theorem doGetHistory_eq {c : RoutedCollector} {name : String} (h : Publishes c name)
    (query : Option String) : c.doGetHistory name query = .history c.obj name query := by
  obtain ⟨-, metric, hmem⟩ := h
  unfold RoutedCollector.doGetHistory
  exact if_pos (List.any_eq_true.mpr ⟨(name, metric), hmem, beq_self_eq_true name⟩)

/-- The object of a route is found. -/
theorem find?_objects {s : State} (h : Inv s) {c : RoutedCollector} (hc : c ∈ s.objects) :
    s.objects.find? (fun d => d.obj == c.obj) = some c := by
  cases hfind : s.objects.find? (fun d => d.obj == c.obj) with
  | none =>
      have hnone := List.find?_eq_none.mp hfind c hc
      exact absurd (beq_self_eq_true c.obj) hnone
  | some d =>
      have hobj : d.obj = c.obj := by simpa using List.find?_some hfind
      rw [h.routed.distinct d (List.mem_of_find?_eq_some hfind) c hc hobj]

theorem hostBase_inj {a b : String} (h : hostBase a = hostBase b) : a = b := by
  have hlist := congrArg String.toList h
  simp only [hostBase, String.toList_append, List.append_assoc, List.append_cancel_left_eq,
    List.append_cancel_right_eq] at hlist
  exact String.toList_inj.mp hlist

/-- The service with a collector that the route of the manager answers for is the one that is
found by its identifier. -/
theorem find?_services {services : List HostService} (h : Hosts services) {i : HostService}
    (hi : i ∈ services) (hgeneric : HasGeneric i) :
    services.find? (fun n => n.getID == i.getID) = some i := by
  obtain ⟨k, hk⟩ := List.mem_iff_getElem?.mp hi
  obtain ⟨hlt, hget⟩ := List.getElem?_eq_some_iff.mp hk
  have hsplit : services = services.take k ++ i :: services.drop (k + 1) := by
    rw [← hget, ← List.drop_eq_getElem_cons hlt, List.take_append_drop]
  rw [List.find?_eq_some_iff_append]
  refine ⟨beq_self_eq_true _, services.take k, services.drop (k + 1), hsplit, fun n hn => ?_⟩
  obtain ⟨j, hj⟩ := List.mem_iff_getElem?.mp hn
  rw [List.getElem?_take] at hj
  split at hj
  · rename_i hjk
    simpa using h.first j k n i hjk hj hk hgeneric
  · exact absurd hj (by simp)

/-- A path without blanks in one line is read as it was asked for. -/
theorem requestPath_of_solid {path : String} (h : ∀ c ∈ path.toList, c ≠ ' ' ∧ c ≠ '\n') :
    requestPath path = some path := by
  let m : RequestText.Message := {
    method := "GET", path, version := "1.1", fields := [], content := []
    method_solid := by decide
    path_solid := h
    version_line := by decide
    fields_line := fun f hf => absurd hf List.not_mem_nil }
  have htext : ("GET " ++ path ++ " HTTP/1.1\r\n\r\n").toList = m.head := by
    simp [m, RequestText.Message.head, RequestText.Message.lines, RequestText.Message.firstLine,
      Delimited.linesText]
  have hturns : m.fields.length < ("GET " ++ path ++ " HTTP/1.1\r\n\r\n").length := by
    rw [String.length_append, String.length_append]
    have hend : 0 < " HTTP/1.1\r\n\r\n".length := by decide
    exact Nat.lt_of_lt_of_le hend (Nat.le_add_left _ _)
  have hparse := RequestText.parse_message m [] _ hturns
  rw [List.append_nil] at hparse
  unfold requestPath
  dsimp only
  rw [htext, hparse]
  rfl

/-- The path of a ressource has no blank and is in one line. -/
theorem path_solid {c : RoutedCollector}
    (hname : ∀ d ∈ (c.basePath ++ c.name).toList, d ≠ ' ' ∧ Regex.isLine d = true) {r : String}
    (hr : IsPart r) : ∀ d ∈ (c.path r).toList, d ≠ ' ' ∧ d ≠ '\n' := by
  have hline : ∀ d, d ≠ ' ' ∧ Regex.isLine d = true → d ≠ ' ' ∧ d ≠ '\n' := by
    rintro d ⟨hblank, hd⟩
    refine ⟨hblank, ?_⟩
    rintro rfl
    exact absurd hd (by decide)
  rw [toList_path]
  intro d hd
  rcases List.mem_append.mp hd with hd | hd
  · exact hline d (hname d hd)
  · rcases List.mem_cons.mp hd with rfl | hd
    · decide
    · rcases List.mem_append.mp hd with hd | hd
      · exact hline d (hr d hd).2.2
      · exact (by decide : ∀ d ∈ "/history".toList, d ≠ ' ' ∧ d ≠ '\n') d hd

/-- Every path that a collector publishes is answered by the history of the ressource. -/
theorem get_path {s : State} (h : Inv s) {c : RoutedCollector} (hc : c ∈ s.objects)
    {name : String} (hpub : Publishes c name) :
    s.get (c.path name) = .history c.obj name none := by
  obtain ⟨henable, metric, hmem⟩ := id hpub
  have hpart : IsPart name := h.parts c hc (name, metric) hmem
  unfold State.get
  by_cases hdirect : Direct c
  · have hname := (h.routed.own c hc hdirect).1
    have hquery := query_path (question_not_mem ((h.routed.placed c hc).isIdentifier hname)) hpart
    rw [answers_own h.routed hc hdirect henable hpart, hquery]
    show s.respond none (.doGetHistory c.obj) [name] = _
    unfold State.respond
    dsimp only
    rw [find?_objects h hc]
    exact doGetHistory_eq hpub none
  · rcases mem_objects.mp hc with ⟨e, he, rfl⟩ | ⟨i, hi, e, he, rfl⟩
    · exact absurd (.inl (h.system e he)) hdirect
    · obtain ⟨hkey, hname, hbase⟩ := h.hosts.generic i hi e he hdirect henable
      rcases h.routed.placed e.2 hc with ⟨hserv, -⟩ | ⟨-, id, hid, hplace⟩
      · exact absurd (.inl hserv) hdirect
      · obtain rfl : id = i.getID := hostBase_inj (hplace.symm.trans hbase)
        have hstem : '?' ∉ (e.2.basePath ++ e.2.name).toList := by
          rw [hplace, String.toList_append, List.mem_append, not_or]
          exact ⟨question_not_mem (isIdentifier_hostBase hid), fun hq => (hname '?' hq).2.1 rfl⟩
        rw [answers_generic h.routed hplace hid (fun hb => hdirect (.inr hb)) hname hpart,
          query_path hstem hpart]
        show s.doGetCollectorHistory i.getID e.2.name name none = _
        unfold State.doGetCollectorHistory
        have hlookup : i.collectors.lookup e.2.name = some e.2 :=
          OrderedMap.lookup_of_mem (h.hosts.keys i hi) (hkey ▸ he)
        rw [find?_services h.hosts hi ⟨e, he, hdirect, henable⟩]
        dsimp only
        rw [hlookup]
        exact doGetHistory_eq hpub none

/-- The base path and the name of a collector that publishes have no blank. -/
theorem stem_solid {s : State} (h : Inv s) {c : RoutedCollector} (hc : c ∈ s.objects)
    (henable : c.enable = true) :
    ∀ d ∈ (c.basePath ++ c.name).toList, d ≠ ' ' ∧ Regex.isLine d = true := by
  have hplaced := h.routed.placed c hc
  by_cases hdirect : Direct c
  · have hstem := hplaced.isIdentifier (h.routed.own c hc hdirect).1
    exact fun d hd => (hstem d hd).2
  · rcases mem_objects.mp hc with ⟨e, he, rfl⟩ | ⟨i, hi, e, he, rfl⟩
    · exact absurd (.inl (h.system e he)) hdirect
    · obtain ⟨-, hname, -⟩ := h.hosts.generic i hi e he hdirect henable
      rcases hplaced with ⟨hserv, -⟩ | ⟨-, id, hid, hplace⟩
      · exact absurd (.inl hserv) hdirect
      · rw [hplace, String.toList_append]
        intro d hd
        rcases List.mem_append.mp hd with hd | hd
        · exact (isIdentifier_hostBase hid d hd).2
        · exact (hname d hd).2.2

/-- A client that asks for the path gets the history. -/
theorem answer_path {s : State} (h : Inv s) {c : RoutedCollector} (hc : c ∈ s.objects)
    {name : String} (hpub : Publishes c name) :
    s.answer (c.path name) = some (.history c.obj name none) := by
  obtain ⟨henable, metric, hmem⟩ := id hpub
  have hpart : IsPart name := h.parts c hc (name, metric) hmem
  rw [State.answer, requestPath_of_solid (path_solid (stem_solid h hc henable) hpart),
    Option.map_some, get_path h hc hpub]

theorem served_of_inv {s : State} (h : Inv s) : Served s := by
  intro e he
  refine ⟨refs_doGetJson s e he, (hasPath_doGetJson s e.1).mp ⟨e.2, he⟩, ?_⟩
  intro c hc name hpub heq
  rw [heq]
  exact answer_path h hc hpub

/-! ### The calls of the enhancers -/

theorem sameRoute_addRessource (c : RoutedCollector) (name : String) (metric : Metric) :
    (c.addRessource name metric).obj = c.obj ∧ SameRoute (c.addRessource name metric) c := by
  unfold RoutedCollector.addRessource
  split
  · exact ⟨rfl, rfl, rfl, rfl, rfl⟩
  · exact ⟨rfl, rfl, rfl, rfl, rfl⟩

/-- The collector that a constructor leaves. -/
theorem construct_collector (s : State) (plugin : Plugin) (serv : Option HostService) :
    (s.construct plugin serv).2.obj = s.next ∧ (s.construct plugin serv).2.name = plugin.name ∧
      (s.construct plugin serv).2.basePath = (serv.map HostService.basePath).getD "/system/" ∧
      (s.construct plugin serv).2.haveService = serv.isSome ∧
      (s.construct plugin serv).2.enable = plugin.enable := by
  refine Run.exec_keeps (I := fun c : RoutedCollector => c.obj = s.next ∧ c.name = plugin.name ∧
    c.basePath = (serv.map HostService.basePath).getD "/system/" ∧
      c.haveService = serv.isSome ∧ c.enable = plugin.enable)
    _ plugin.ressources (fun c r _ h => ?_) ⟨rfl, rfl, rfl, rfl, rfl⟩
  obtain ⟨hobj, hbase, hname, hserv, henable⟩ := sameRoute_addRessource c r.1 r.2
  rw [hobj, hbase, hname, hserv, henable]
  exact h

/-- A new collector, with its routes if the constructor adds them. -/
theorem routed_construct {s : State} {live : List RoutedCollector} (plugin : Plugin)
    (serv : Option HostService) (h : Routed s.resource live s.next)
    (hplaced : Placed (s.construct plugin serv).2)
    (hnew : Direct (s.construct plugin serv).2 →
      (plugin.enable = true → plugin.addsRoute = true) ∧ IsIdentifier plugin.name ∧
        Apart live (s.construct plugin serv).2) :
    Routed (s.construct plugin serv).1.resource ((s.construct plugin serv).2 :: live)
      (s.next + 1) := by
  obtain ⟨hobj, hname, -, -, henable⟩ := construct_collector s plugin serv
  rw [← hname, ← henable] at hnew
  show Routed (if plugin.addsRoute then
      setRegexes s.resource (metricRoutes (s.construct plugin serv).2) else s.resource) _ _
  split
  · exact h.add_collector hobj hplaced fun hdirect => (hnew hdirect).2
  · rename_i hroute
    refine h.cons hobj hplaced fun hdirect => ?_
    obtain ⟨hneeds, hrest⟩ := hnew hdirect
    exact ⟨Bool.eq_false_iff.mpr fun hen => hroute (hneeds hen), hrest⟩

/-- While the enhancers work on a service: the rest of the agent is as before, and the new
collectors are on the service. -/
structure Enhancing (s : State) (stored : Prop) (w : State × HostService) : Prop where
  system : w.1.systemCollectors = s.systemCollectors
  services : w.1.services = s.services
  next : s.next ≤ w.1.next
  routed : Routed w.1.resource (live w) w.1.next
  fresh : ∀ e ∈ w.2.collectors, s.next ≤ e.2.obj ∧ e.2.haveService = true
  keys : OrderedMap.Sorted w.2.collectors
  stays : ∀ e ∈ w.2.collectors, Direct e.2 → stored

theorem Enhancing.objects {s : State} {stored : Prop} {w : State × HostService}
    (h : Enhancing s stored w) : w.1.objects = s.objects := by
  unfold State.objects
  rw [h.system, h.services]

section
variable {plugins : String → Option Plugin} {s : State} {stored : Prop}
  {w : State × HostService}

/-- `addCollector`, where a collector is built. -/
theorem enhancing_construct (h : Enhancing s stored w) {name : String} {plugin : Plugin}
    (hlookup : w.2.collectors.lookup name = none) (hid : IsIdentifier w.2.getID)
    (hbefore : Before w.2.basePath → stored ∧
      (plugin.enable = true → plugin.addsRoute = true) ∧ IsIdentifier plugin.name ∧
        Apart (live w) (w.1.construct plugin (some w.2)).2) :
    Enhancing s stored ((w.1.construct plugin (some w.2)).1,
      { w.2 with
          collectors :=
            OrderedMap.insert name (w.1.construct plugin (some w.2)).2 w.2.collectors }) := by
  obtain ⟨hobj, -, hbase, hserv, -⟩ := construct_collector w.1 plugin (some w.2)
  have hplaced : Placed (w.1.construct plugin (some w.2)).2 := .inr ⟨hserv, w.2.getID, hid, hbase⟩
  have hdirect : Direct (w.1.construct plugin (some w.2)).2 → Before w.2.basePath :=
    fun hd => show Before ((Option.map HostService.basePath (some w.2)).getD "/system/") from
      hbase ▸ hd.before hserv
  have hrouted := routed_construct plugin (some w.2) h.routed hplaced
    fun hd => (hbefore (hdirect hd)).2
  -- An entry of the service is the new one or an old one.
  have hentry : ∀ e ∈ OrderedMap.insert name (w.1.construct plugin (some w.2)).2 w.2.collectors,
      e.2 = (w.1.construct plugin (some w.2)).2 ∨ e ∈ w.2.collectors := by
    intro e he
    exact (OrderedMap.eq_or_mem_of_mem_insert he).imp_left fun heq => by rw [heq]
  refine ⟨h.system, h.services, h.next.trans (Nat.le_succ _), hrouted.of_subset ?_ ?_, ?_,
    OrderedMap.sorted_insert _ _ h.keys, ?_⟩
  · intro d hd
    rcases List.mem_append.mp hd with hd | hd
    · exact List.mem_cons_of_mem _ (List.mem_append_left _ hd)
    · obtain ⟨e, he, rfl⟩ := List.mem_map.mp hd
      rcases hentry e he with heq | hold
      · rw [heq]
        exact List.mem_cons_self
      · exact List.mem_cons_of_mem _ (List.mem_append_right _ (List.mem_map_of_mem hold))
  · intro d hd _
    rcases List.mem_cons.mp hd with rfl | hd
    · exact List.mem_append_right _
        (List.mem_map_of_mem (f := Prod.snd) (OrderedMap.self_mem_insert _ _ _))
    · rcases List.mem_append.mp hd with hd | hd
      · exact List.mem_append_left _ hd
      · obtain ⟨e, he, rfl⟩ := List.mem_map.mp hd
        have hne := OrderedMap.ne_of_lookup_none hlookup he
        exact List.mem_append_right _
          (List.mem_map_of_mem (OrderedMap.mem_insert_of_ne _ he hne))
  · intro e he
    rcases hentry e he with heq | hold
    · rw [heq, hobj]
      exact ⟨h.next, hserv⟩
    · exact h.fresh e hold
  · intro e he hd
    rcases hentry e he with heq | hold
    · rw [heq] at hd
      exact (hbefore (hdirect hd)).1
    · exact h.stays e hold hd

/-- `updateBasePaths`. -/
theorem enhancing_updateBasePaths (hs : Inv s) (h : Enhancing s stored w)
    (hok : CallOk plugins stored w .updateBasePaths) :
    Enhancing s stored (State.call plugins w .updateBasePaths) := by
  let rebase (c : RoutedCollector) : RoutedCollector :=
    { c with basePath := w.2.basePath, haveService := true }
  let f (c : RoutedCollector) : RoutedCollector := if s.next ≤ c.obj then rebase c else c
  have hnew : ∀ e ∈ w.2.collectors, f e.2 = rebase e.2 := fun e he => if_pos (h.fresh e he).1
  have hold : ∀ c ∈ w.1.objects, f c = c := by
    intro c hc
    rw [h.objects] at hc
    exact if_neg (not_le.mpr (hs.routed.bound c hc))
  -- Only the new objects change.
  have hlive : live (State.call plugins w .updateBasePaths) = (live w).map f := by
    show w.1.objects ++ (w.2.collectors.map fun e => (e.1, rebase e.2)).map Prod.snd = _
    rw [live, List.map_append, List.map_congr_left hold, List.map_id', List.map_map, List.map_map]
    congr 1
    exact List.map_congr_left fun e he => (hnew e he).symm
  have hobj : ∀ c ∈ live w, (f c).obj = c.obj := by
    intro c _
    show (if s.next ≤ c.obj then rebase c else c).obj = c.obj
    split <;> rfl
  have hf : ∀ c ∈ live w, SameRoute (f c) c ∨ (¬ Direct c ∧ ¬ Direct (f c) ∧ Placed (f c)) := by
    intro c hc
    rcases List.mem_append.mp hc with hc | hc
    · rw [hold c hc]
      exact .inl ⟨rfl, rfl, rfl, rfl⟩
    · obtain ⟨e, he, rfl⟩ := List.mem_map.mp hc
      have hserv := (h.fresh e he).2
      rw [hnew e he]
      rcases hok e he with hsame | ⟨hid, hafter, hafter'⟩
      · exact .inl ⟨hsame.symm, rfl, hserv.symm, rfl⟩
      · exact .inr ⟨fun hd => hafter' (hd.before hserv), fun hd => hafter (hd.before rfl),
          .inr ⟨rfl, w.2.getID, hid, rfl⟩⟩
  refine ⟨h.system, h.services, h.next, ?_, ?_, ?_, ?_⟩
  · rw [hlive]
    exact h.routed.map hobj hf
  · intro e he
    obtain ⟨e', he', rfl⟩ := List.mem_map.mp he
    exact ⟨(h.fresh e' he').1, rfl⟩
  · exact List.pairwise_map.mpr h.keys
  · intro e he hd
    obtain ⟨e', he', rfl⟩ := List.mem_map.mp he
    have hbefore : Before w.2.basePath := hd.before rfl
    rcases hok e' he' with hsame | ⟨-, hafter, -⟩
    · exact h.stays e' he' (.inr (hsame ▸ hbefore))
    · exact absurd hbefore hafter

/-- A good call of an enhancer. -/
theorem enhancing_call (hs : Inv s) (h : Enhancing s stored w) {c : EnhancerCall}
    (hok : CallOk plugins stored w c) : Enhancing s stored (State.call plugins w c) := by
  cases c with
  | setter call =>
      exact ⟨h.system, h.services, h.next, h.routed, h.fresh, h.keys, h.stays⟩
  | addLogMonitor name file => exact h
  | updateBasePaths => exact enhancing_updateBasePaths hs h hok
  | addCollector name =>
      cases hlookup : w.2.collectors.lookup name with
      | some c =>
          have hcall : State.call plugins w (.addCollector name) = w := by
            simp [State.call, hlookup]
          rw [hcall]
          exact h
      | none =>
          cases hplugin : plugins name with
          | none =>
              have hcall : State.call plugins w (.addCollector name) = w := by
                simp [State.call, hlookup, hplugin]
              rw [hcall]
              exact h
          | some plugin =>
              have hcall : State.call plugins w (.addCollector name)
                  = ((w.1.construct plugin (some w.2)).1,
                    { w.2 with
                        collectors := OrderedMap.insert name
                          (w.1.construct plugin (some w.2)).2 w.2.collectors }) := by
                simp [State.call, hlookup, hplugin]
              have hnew : plugin ∈ newPlugin plugins w name := by
                simp [newPlugin, hlookup, hplugin]
              obtain ⟨hid, hbefore⟩ := hok plugin hnew
              rw [hcall]
              exact enhancing_construct h hlookup hid hbefore

/-- After good calls. -/
theorem enhancing_enhanced (hs : Inv s) {d : Service} {calls : List EnhancerCall}
    (hok : Run.Meets (State.call plugins) (CallOk plugins stored) (s, { toService := d }) calls) :
    Enhancing s stored (enhanced s plugins d calls) := by
  have hstart : Enhancing s stored (s, { toService := d }) := {
    system := rfl
    services := rfl
    next := le_rfl
    routed := by
      show Routed s.resource (s.objects ++ []) s.next
      rw [List.append_nil]
      exact hs.routed
    fresh := by simp
    keys := OrderedMap.sorted_nil
    stays := by simp }
  exact Run.exec_of_meets (I := Enhancing s stored) (fun _ _ h hc => enhancing_call hs h hc) _
    calls hstart hok

end

/-! ### The steps -/

/-- A change of one service, without its collectors. -/
def rename (f : Service → Service) (i : HostService) : HostService :=
  { i with toService := f i.toService }

theorem hosts_modify {s : State} (h : Hosts s.services) {k : Nat} {f : Service → Service}
    (hok : RenameOk s k f) : Hosts (s.services.modify k (rename f)) := by
  refine ⟨?_, ?_, ?_⟩
  · intro i hi
    rcases mem_modify _ hi with hold | ⟨i, hk, rfl⟩
    · exact h.keys i hold
    · exact h.keys i (List.mem_of_getElem? hk)
  · intro i hi e he hdirect henable
    rcases mem_modify _ hi with hold | ⟨i, hk, rfl⟩
    · exact h.generic i hold e he hdirect henable
    · have hsame : (f i.toService).getID = i.getID := (hok i hk).1 ⟨e, he, hdirect, henable⟩
      obtain ⟨hkey, hname, hbase⟩ :=
        h.generic i (List.mem_of_getElem? hk) e he hdirect henable
      refine ⟨hkey, hname, hbase.trans ?_⟩
      show hostBase i.getID = hostBase (f i.toService).getID
      rw [hsame]
  · intro j j' n i hlt hn hi hgeneric
    rw [List.getElem?_modify] at hn hi
    obtain ⟨n₀, hn₀, rfl⟩ := Option.map_eq_some_iff.mp hn
    obtain ⟨i₀, hi₀, rfl⟩ := Option.map_eq_some_iff.mp hi
    by_cases hj : k = j
    · -- The earlier one is changed, and avoids the identifiers of the later ones.
      subst hj
      have hne : k ≠ j' := hlt.ne
      rw [if_neg hne] at hgeneric ⊢
      rw [if_pos rfl]
      refine (hok n₀ hn₀).2 i₀ ?_ hgeneric
      rw [List.mem_iff_getElem?]
      refine ⟨j' - (k + 1), ?_⟩
      rw [List.getElem?_drop, Nat.add_sub_cancel' hlt]
      exact hi₀
    · rw [if_neg hj]
      by_cases hj' : k = j'
      · subst hj'
        rw [if_pos rfl] at hgeneric ⊢
        show n₀.getID ≠ (f i₀.toService).getID
        rw [(hok i₀ hi₀).1 hgeneric]
        exact h.first j k n₀ i₀ hlt hn₀ hi₀ hgeneric
      · rw [if_neg hj'] at hgeneric ⊢
        exact h.first j j' n₀ i₀ hlt hn₀ hi₀ hgeneric

theorem hosts_append {s : State} (h : Hosts s.services) {add : HostService}
    (hkeys : OrderedMap.Sorted add.collectors) (hok : StoredOk s add) :
    Hosts (s.services ++ [add]) := by
  refine ⟨?_, ?_, ?_⟩
  · intro i hi
    rcases List.mem_append.mp hi with hi | hi
    · exact h.keys i hi
    · rw [List.mem_singleton.mp hi]
      exact hkeys
  · intro i hi e he hdirect henable
    rcases List.mem_append.mp hi with hi | hi
    · exact h.generic i hi e he hdirect henable
    · obtain rfl := List.mem_singleton.mp hi
      obtain ⟨hkey, hname, hbase, -⟩ := (hok e he).2 hdirect henable
      exact ⟨hkey, hname, hbase⟩
  · intro j k n i hlt hn hi hgeneric
    by_cases hk : k < s.services.length
    · rw [List.getElem?_append_left (hlt.trans hk)] at hn
      rw [List.getElem?_append_left hk] at hi
      exact h.first j k n i hlt hn hi hgeneric
    · -- The later one is the new service.
      have hend : k = s.services.length := by
        have hlast := (List.getElem?_eq_some_iff.mp hi).1
        simp at hlast
        omega
      subst hend
      rw [List.getElem?_concat_length, Option.some.injEq] at hi
      subst hi
      rw [List.getElem?_append_left hlt] at hn
      obtain ⟨e, he, hdirect, henable⟩ := hgeneric
      exact ((hok e he).2 hdirect henable).2.2.2 n (List.mem_of_getElem? hn)

/-- A change of one service leaves the collectors. -/
theorem objects_modify (s : State) (k : Nat) (f : Service → Service) :
    { s with services := s.services.modify k (rename f) }.objects = s.objects := by
  unfold State.objects
  exact congrArg (s.systemCollectors.map Prod.snd ++ ·)
    (flatMap_modify_of_eq _ _ s.services k fun _ => rfl)

theorem inv_modify {s : State} (h : Inv s) {k : Nat} {f : Service → Service}
    (hok : RenameOk s k f) : Inv { s with services := s.services.modify k (rename f) } where
  routed := by
    rw [objects_modify]
    exact h.routed
  parts := by
    rw [objects_modify]
    exact h.parts
  system := h.system
  hosts := hosts_modify h.hosts hok

/-- A service of a configuration file has no collectors. -/
theorem inv_load {s : State} (h : Inv s) (d : Service) : Inv (step s (.load d)) := by
  have hobjects : (step s (.load d)).objects = s.objects := by
    simp [State.objects, step]
  refine ⟨?_, ?_, h.system, ?_⟩
  · rw [hobjects]
    exact h.routed
  · rw [hobjects]
    exact h.parts
  · refine hosts_append h.hosts OrderedMap.sorted_nil fun e he => ?_
    exact absurd he List.not_mem_nil

theorem inv_system {s : State} (h : Inv s) {key : String} {plugin : Plugin}
    (hgood : Good s (.system key plugin)) : Inv (s.addSystem key plugin) := by
  unfold State.addSystem
  split
  · exact h
  · rename_i hlookup
    obtain ⟨hroute, hname, hapart, hparts⟩ := hgood.resolve_left hlookup
    obtain ⟨-, -, hbase, hserv, -⟩ := construct_collector s plugin none
    have hnone : s.systemCollectors.lookup key = none := Option.not_isSome_iff_eq_none.mp hlookup
    have hrouted := routed_construct plugin none h.routed (.inl ⟨hserv, hbase⟩)
      fun _ => ⟨hroute, hname, hapart⟩
    -- The collectors are the new one and the old ones.
    have hobjects : ∀ d, d ∈ State.objects { (s.construct plugin none).1 with
        systemCollectors :=
          OrderedMap.insert key (s.construct plugin none).2 s.systemCollectors }
        ↔ d ∈ (s.construct plugin none).2 :: s.objects := by
      intro d
      rw [mem_objects, List.mem_cons, mem_objects]
      constructor
      · rintro (⟨e, he, rfl⟩ | hserved)
        · rcases OrderedMap.eq_or_mem_of_mem_insert he with heq | hmem
          · exact .inl (by rw [heq])
          · exact .inr (.inl ⟨e, hmem, rfl⟩)
        · exact .inr (.inr hserved)
      · rintro (rfl | ⟨e, he, rfl⟩ | hserved)
        · exact .inl ⟨_, OrderedMap.self_mem_insert _ _ _, rfl⟩
        · have hne := OrderedMap.ne_of_lookup_none hnone he
          exact .inl ⟨e, OrderedMap.mem_insert_of_ne _ he hne, rfl⟩
        · exact .inr hserved
    refine ⟨hrouted.of_subset (fun c hc => (hobjects c).mp hc) fun c hc _ => (hobjects c).mpr hc,
      ?_, ?_, h.hosts⟩
    · intro c hc
      rcases List.mem_cons.mp ((hobjects c).mp hc) with rfl | hold
      · exact hparts
      · exact h.parts c hold
    · intro e he
      rcases OrderedMap.eq_or_mem_of_mem_insert he with rfl | hmem
      · exact hserv
      · exact h.system e hmem

/-- The merges of `addService` are one, at the target. -/
theorem merge_eq (os : OsState) (w : State × HostService) :
    (if w.1.services.any (fun i => w.2.equals i.toService) then
        { w.1 with
            services := modifyFirst (fun i => w.2.equals i.toService)
              (rename fun i => i.updateFrom os w.2.toService) w.1.services }
      else if w.1.services.any (fun i => i.needSocketFrom os w.2.toService) then
        { w.1 with
            services := modifyFirst (fun i => i.needSocketFrom os w.2.toService)
              (rename fun i => i.updateFrom os w.2.toService) w.1.services }
      else { w.1 with services := w.1.services ++ [w.2] })
      = { w.1 with
          services := match target os w.1 w.2 with
            | some k => w.1.services.modify k (rename fun i => i.updateFrom os w.2.toService)
            | none => w.1.services ++ [w.2] } := by
  refine Eq.trans ?_ (congrArg (fun l : List HostService => { w.1 with services := l })
    (modifyFirst_else_append _ _ _ _ _))
  split
  · rfl
  · split <;> rfl

/-- `addService` updates the service at the target, or stores the new one. -/
theorem addService_eq {s : State} {os : OsState} {plugins : String → Option Plugin}
    {d : Service} {calls : List EnhancerCall} {w : State × HostService}
    (hw : enhanced s plugins d calls = w) (hservices : w.1.services = s.services) :
    s.addService os plugins d calls = { w.1 with
      services := match target os s w.2 with
        | some k => s.services.modify k (rename fun i => i.updateFrom os w.2.toService)
        | none => s.services ++ [w.2] } := by
  have hmerge := merge_eq os w
  unfold target at hmerge ⊢
  rw [hservices] at hmerge
  rw [← hmerge, ← hservices, ← hw]
  rfl

theorem inv_add {s : State} (h : Inv s) {os : OsState} {plugins : String → Option Plugin}
    {d : Service} {calls : List EnhancerCall} (hgood : Good s (.add os plugins d calls)) :
    Inv (s.addService os plugins d calls) := by
  obtain ⟨hmeets, hmerged, hstored⟩ := hgood
  have henh := enhancing_enhanced h hmeets
  generalize hw : enhanced s plugins d calls = w at henh hmerged hstored
  rw [addService_eq hw henh.services]
  cases htarget : target os s w.2 with
  | some k =>
      rw [htarget] at henh
      -- The new collectors are destroyed. None of them was direct.
      have hinv : Inv w.1 := by
        refine ⟨henh.routed.of_subset (fun c hc => List.mem_append_left _ hc) ?_, ?_, ?_, ?_⟩
        · intro c hc hdirect
          rcases List.mem_append.mp hc with hc | hc
          · exact hc
          · obtain ⟨e, he, rfl⟩ := List.mem_map.mp hc
            exact absurd (henh.stays e he hdirect) (by simp)
        · rw [henh.objects]
          exact h.parts
        · rw [henh.system]
          exact h.system
        · rw [henh.services]
          exact h.hosts
      have hrename : RenameOk w.1 k (fun i => i.updateFrom os w.2.toService) := by
        unfold RenameOk
        rw [henh.services]
        exact hmerged k htarget
      have hmodify := inv_modify hinv hrename
      rw [henh.services] at hmodify
      exact hmodify
  | none =>
      have hdone := hstored htarget
      have hobjects : ∀ c, c ∈ State.objects { w.1 with services := s.services ++ [w.2] }
          ↔ c ∈ live w := by
        intro c
        unfold live
        rw [mem_objects, List.mem_append, henh.objects, mem_objects, ← henh.system, or_assoc]
        refine or_congr_right ?_
        simp only [List.mem_append, List.mem_singleton, List.mem_map]
        constructor
        · rintro ⟨i, hi | rfl, hmem⟩
          · exact .inl ⟨i, hi, hmem⟩
          · exact .inr hmem
        · rintro (⟨i, hi, hmem⟩ | hmem)
          · exact ⟨i, .inl hi, hmem⟩
          · exact ⟨w.2, .inr rfl, hmem⟩
      refine ⟨henh.routed.of_subset (fun c hc => (hobjects c).mp hc)
        fun c hc _ => (hobjects c).mpr hc, ?_, ?_, hosts_append h.hosts henh.keys hdone⟩
      · intro c hc
        rcases List.mem_append.mp ((hobjects c).mp hc) with hold | hnew
        · rw [henh.objects] at hold
          exact h.parts c hold
        · obtain ⟨e, he, rfl⟩ := List.mem_map.mp hnew
          exact (hdone e he).1
      · rw [henh.system]
        exact h.system

/-- The collectors of a service change, and their names and routes stay. -/
def regrow (f : RoutedCollector → RoutedCollector) (i : HostService) : HostService :=
  { i with collectors := i.collectors.map (fun e => (e.1, f e.2)) }

theorem hosts_regrow {services : List HostService} (h : Hosts services)
    {f : RoutedCollector → RoutedCollector} (hf : ∀ c, SameRoute (f c) c) :
    Hosts (services.map (regrow f)) := by
  have hgeneric : ∀ {i}, HasGeneric (regrow f i) → HasGeneric i := by
    rintro i ⟨e, he, hdirect, henable⟩
    obtain ⟨e', he', rfl⟩ := List.mem_map.mp he
    exact ⟨e', he', fun hd => hdirect ((hf e'.2).direct.mpr hd),
      (hf e'.2).2.2.2.symm.trans henable⟩
  refine ⟨?_, ?_, ?_⟩
  · intro i hi
    obtain ⟨i', hi', rfl⟩ := List.mem_map.mp hi
    exact List.pairwise_map.mpr (h.keys i' hi')
  · intro i hi e he hdirect henable
    obtain ⟨i', hi', rfl⟩ := List.mem_map.mp hi
    obtain ⟨e', he', rfl⟩ := List.mem_map.mp he
    have hold := h.generic i' hi' e' he' (fun hd => hdirect ((hf e'.2).direct.mpr hd))
      ((hf e'.2).2.2.2.symm.trans henable)
    dsimp only
    rw [(hf e'.2).1, (hf e'.2).2.1]
    exact hold
  · intro j k n i hlt hn hi hgen
    rw [List.getElem?_map] at hn hi
    obtain ⟨n', hn', rfl⟩ := Option.map_eq_some_iff.mp hn
    obtain ⟨i', hi', rfl⟩ := Option.map_eq_some_iff.mp hi
    exact h.first j k n' i' hlt hn' hi' (hgeneric hgen)

theorem parts_addRessource {c : RoutedCollector} (h : Parts c) {name : String} (metric : Metric)
    (hpart : IsPart name) : Parts (c.addRessource name metric) := by
  unfold RoutedCollector.addRessource
  split
  · exact h
  · intro r hr
    rcases OrderedMap.eq_or_mem_of_mem_insert hr with rfl | hmem
    · exact hpart
    · exact h r hmem

theorem inv_addRessource {s : State} (h : Inv s) {obj : Nat} {name : String} {metric : Metric}
    (hpart : IsPart name) : Inv (step s (.addRessource obj name metric)) := by
  let f (c : RoutedCollector) : RoutedCollector :=
    if c.obj = obj then c.addRessource name metric else c
  have hsame : ∀ c, (f c).obj = c.obj ∧ SameRoute (f c) c := by
    intro c
    show (if c.obj = obj then c.addRessource name metric else c).obj = c.obj ∧
      SameRoute (if c.obj = obj then c.addRessource name metric else c) c
    split
    · exact sameRoute_addRessource c name metric
    · exact ⟨rfl, rfl, rfl, rfl, rfl⟩
  have hparts : ∀ c, Parts c → Parts (f c) := by
    intro c hc
    show Parts (if c.obj = obj then c.addRessource name metric else c)
    split
    · exact parts_addRessource hc metric hpart
    · exact hc
  have hgrow : (fun e : String × RoutedCollector =>
      if e.2.obj = obj then (e.1, e.2.addRessource name metric) else e)
      = fun e => (e.1, f e.2) := by
    funext e
    show _ = (e.1, if e.2.obj = obj then e.2.addRessource name metric else e.2)
    split <;> rfl
  have hstep : step s (.addRessource obj name metric) = { s with
      systemCollectors := s.systemCollectors.map (fun e => (e.1, f e.2))
      services := s.services.map (regrow f) } := by
    unfold step regrow
    dsimp only
    rw [hgrow]
  have hobjects : State.objects { s with
      systemCollectors := s.systemCollectors.map (fun e => (e.1, f e.2))
      services := s.services.map (regrow f) } = s.objects.map f := by
    simp [State.objects, regrow, List.flatMap_map, List.map_flatMap, Function.comp_def]
  rw [hstep]
  refine ⟨?_, ?_, ?_, hosts_regrow h.hosts fun c => (hsame c).2⟩
  · rw [hobjects]
    exact h.routed.map (fun c _ => (hsame c).1) fun c _ => .inl (hsame c).2
  · rw [hobjects]
    intro c hc
    obtain ⟨c', hc', rfl⟩ := List.mem_map.mp hc
    exact hparts c' (h.parts c' hc')
  · intro e he
    obtain ⟨e', he', rfl⟩ := List.mem_map.mp he
    exact (hsame e'.2).2.2.2.1.trans (h.system e' he')

theorem inv_step {s : State} (h : Inv s) {move : Move} (hgood : Good s move) :
    Inv (step s move) := by
  cases move with
  | system key plugin => exact inv_system h hgood
  | load d => exact inv_load h d
  | add os plugins d calls => exact inv_add h hgood
  | update k op => exact inv_modify h hgood
  | addRessource obj name metric => exact inv_addRessource h hgood

/-- In a run whose steps keep the names in agreement, every advertised path is served in every
state. -/
theorem served_of_good (moves : List Move) (h : Run.Meets step Good start moves) :
    Run.Always step Served start moves :=
  Run.always_of_meets (fun _ => served_of_inv) (fun _ _ hs hgood => inv_step hs hgood) start
    moves inv_start h

/-- A collector of the system, a service whose enhancers attach a collector, set its key and
update the base paths, and a ressource that appears while the collector runs. -/
theorem served_cpu : Run.Always step Served start [
    .system "uptime" { name := "uptime", ressources := [("uptime", { typeName := "uptime" })] },
    .add {} (fun name => if name = "cpu" then some {
        name := "cpu", ressources := [("stat", { typeName := "service_cpu_stat" })] } else none)
      { name := "rpc.statd", uniqName := "111" }
      [.addCollector "cpu", .setter (.setUniqKey "dynamic"), .updateBasePaths],
    .addRessource 1 "shed" { typeName := "service_cpu_shed" }] :=
  served_of_good _ (by decide)

/-- The factory with the plugin of the file `net.lua`, whose `cfg.name` is `network`. -/
def netPlugins (name : String) : Option Plugin :=
  if name = "net" then
    some { name := "network", ressources := [("rx", { typeName := "traffic" })] }
  else none

/-- The collector that an enhancer attaches to a new service with that plugin. -/
def netCollector : RoutedCollector := {
  obj := 0, name := "network", basePath := "/service/nginx-80/", haveService := true
  ressources := [("rx", { typeName := "traffic" })] }

/-- The document lists the path of that collector, and a request for it finds no collector. -/
theorem not_served_renamed : ¬ Run.Always step Served start
    [.add {} netPlugins { name := "nginx", uniqName := "80" } [.addCollector "net"]] := by
  rintro ⟨-, hserved⟩
  let s := step start
    (.add {} netPlugins { name := "nginx", uniqName := "80" } [.addCollector "net"])
  have hc : netCollector ∈ s.objects := by decide
  have hpub : Publishes netCollector "rx" := ⟨rfl, { typeName := "traffic" }, by decide⟩
  obtain ⟨item, he⟩ := (hasPath_doGetJson s (netCollector.path "rx")).mpr
    ⟨netCollector, hc, "rx", hpub, rfl⟩
  have hget : s.answer (netCollector.path "rx") = some (.history 0 "rx" none) :=
    (hserved _ he).2.2 netCollector hc "rx" hpub rfl
  have herror : s.get (netCollector.path "rx") = .noCollector "network" "nginx-80" := by decide
  rw [State.answer, requestPath_of_solid (by decide), Option.map_some, herror] at hget
  exact absurd (Option.some.inj hget) (by simp)

end Advertised

end WatchedAgent.Proofs
