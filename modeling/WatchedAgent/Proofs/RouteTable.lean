import WatchedAgent.Model.Routes

/-!
# `WatchedAgent.Proofs.RouteTable`: which route answers for a path of a collector

Two routes can answer for the path of a ressource: the own route of the collector
(`ownRoute`), and the one of the manager (`genericRoute`), which matches every path of a
service with three parts and more. The order of the texts decides. For an identifier that
starts with a character after `(` the route of the manager comes first. A collector is
`Direct` when its own route does.

`Routed` is the invariant of the table. Each route in it is the one of the manager, or takes
no path that ends in `/history`, or is the own route of a direct collector that exists, or
comes after the one of the manager. `get_of_direct` and `get_of_generic` derive the answers.
-/

set_option autoImplicit false

namespace WatchedAgent.Proofs.RouteTable

open WatchedAgent.Lib
open WatchedAgent.Lib.Regex
open WatchedAgent.Model.Routes

/-! ### Names -/

/-- The characters with a meaning in a regular expression, without `.`. -/
def metas : List Char := "^$\\*+?()[]\x7b\x7d|".toList

/-- A name that is safe in an expression and in the first line of a request. -/
def IsIdentifier (name : String) : Prop :=
  ∀ c ∈ name.toList, c ∉ metas ∧ c ≠ ' ' ∧ isLine c = true

instance (name : String) : Decidable (IsIdentifier name) :=
  List.decidableBAll (fun c => c ∉ metas ∧ c ≠ ' ' ∧ isLine c = true) name.toList

/-- A name that is one part of a path, before the query, in the first line of a request. -/
def IsPart (name : String) : Prop :=
  ∀ c ∈ name.toList, c ≠ '/' ∧ c ≠ '?' ∧ c ≠ ' ' ∧ isLine c = true

instance (name : String) : Decidable (IsPart name) :=
  List.decidableBAll (fun c => c ≠ '/' ∧ c ≠ '?' ∧ c ≠ ' ' ∧ isLine c = true) name.toList

theorem isIdentifier_append {a b : String} (ha : IsIdentifier a) (hb : IsIdentifier b) :
    IsIdentifier (a ++ b) := by
  intro c hc
  rw [String.toList_append, List.mem_append] at hc
  exact hc.elim (ha c) (hb c)

theorem IsIdentifier.isPlain {name : String} (h : IsIdentifier name) :
    ∀ c ∈ name.toList, IsPlain c := by
  intro c hc
  have hmeta := (h c hc).1
  refine ⟨?_, ?_, ?_⟩ <;>
    · rintro rfl
      exact hmeta (by decide)

theorem IsIdentifier.isLine {name : String} (h : IsIdentifier name) :
    ∀ c ∈ name.toList, isLine c = true := fun c hc => (h c hc).2.2

/-! ### The expressions -/

/-- The base path of a service with that identifier. -/
def hostBase (id : String) : String := "/service/" ++ id ++ "/"

theorem isIdentifier_hostBase {id : String} (h : IsIdentifier id) :
    IsIdentifier (hostBase id) :=
  isIdentifier_append (isIdentifier_append (by decide) h) (by decide)

/-- The expression of the history route of a collector. -/
def historyExpr (c : RoutedCollector) : String := "^" ++ c.basePath ++ c.name ++ "/(.*)/history$"

/-- The history route of a collector. -/
def ownRoute (c : RoutedCollector) : String × Route := (historyExpr c, .doGetHistory c.obj)

/-- The expression of the history route of the manager. -/
def genericExpr : String := "^/service/(.*)/(.*)/(.*)/history$"

/-- The history route of the manager. -/
def genericRoute : String × Route := (genericExpr, .doGetCollectorHistory)

/-- The routes under the base path come before the one of the manager. -/
def Before (basePath : String) : Prop := "^" ++ basePath < genericExpr

instance (basePath : String) : Decidable (Before basePath) :=
  inferInstanceAs (Decidable ("^" ++ basePath < genericExpr))

/-- A collector that its own route answers for: one of the system, or one of a service whose
routes come before the one of the manager. -/
def Direct (c : RoutedCollector) : Prop := c.haveService = false ∨ Before c.basePath

instance (c : RoutedCollector) : Decidable (Direct c) :=
  inferInstanceAs (Decidable (c.haveService = false ∨ Before c.basePath))

/-- The own route of `m` comes first for some path of `n`. -/
def Shadows (m n : RoutedCollector) : Prop :=
  historyExpr m ≤ historyExpr n ∧
    (regexMatch ("^" ++ (m.basePath ++ m.name) ++ "/(.*)$") (n.basePath ++ n.name ++ "/")).isSome
      = true

instance (m n : RoutedCollector) : Decidable (Shadows m n) :=
  inferInstanceAs (Decidable (_ ∧ _))

/-! ### The order of the expressions -/

/-- What follows `/service/` in the base path. -/
theorem firstChar {id : String} (h : IsIdentifier id) :
    ∃ x xs, id.toList ++ ['/'] = x :: xs ∧ x ∉ metas := by
  cases hid : id.toList with
  | nil => exact ⟨'/', [], rfl, by decide⟩
  | cons x xs => exact ⟨x, xs ++ ['/'], rfl, (h x (by simp [hid])).1⟩

/-- A common beginning does not decide the order. -/
theorem append_lt_append_iff (l a b : List Char) : l ++ a < l ++ b ↔ a < b := by
  induction l with
  | nil => rfl
  | cons c l ih =>
      rw [List.cons_append, List.cons_append, List.cons_lt_cons_iff, ih]
      simp

/-- The order is decided by that character. -/
theorem order_of_firstChar {id : String} {x : Char} {xs : List Char}
    (hx : id.toList ++ ['/'] = x :: xs) (hmeta : x ∉ metas) (rest : String) :
    ("^" ++ hostBase id ++ rest < genericExpr ↔ x < '(') ∧
      (genericExpr < "^" ++ hostBase id ++ rest ↔ '(' < x) := by
  have hlist : ("^" ++ hostBase id ++ rest).toList
      = "^/service/".toList ++ x :: (xs ++ rest.toList) := by
    rw [← List.cons_append, ← hx]
    simp [hostBase, String.toList_append]
  have hgeneric : genericExpr.toList
      = "^/service/".toList ++ '(' :: ".*)/(.*)/(.*)/history$".toList := by decide
  have hne : x ≠ '(' := by
    rintro rfl
    exact hmeta (by decide)
  rw [String.lt_iff_toList_lt, String.lt_iff_toList_lt, hlist, hgeneric, append_lt_append_iff,
    append_lt_append_iff, List.cons_lt_cons_iff, List.cons_lt_cons_iff]
  exact ⟨or_iff_left fun h => hne h.1, or_iff_left fun h => hne h.1.symm⟩

/-- What comes before the route of the manager under the base path. -/
theorem before_hostBase {id : String} {x : Char} {xs : List Char}
    (hx : id.toList ++ ['/'] = x :: xs) (hmeta : x ∉ metas) :
    Before (hostBase id) ↔ x < '(' := by
  have horder := (order_of_firstChar hx hmeta "").1
  rwa [String.append_empty] at horder

/-- The routes under a base path are all before the one of the manager, or all after it. -/
theorem lt_of_before {id : String} (h : IsIdentifier id) (hbefore : Before (hostBase id))
    (rest : String) : "^" ++ hostBase id ++ rest < genericExpr := by
  obtain ⟨x, xs, hx, hmeta⟩ := firstChar h
  exact (order_of_firstChar hx hmeta rest).1.mpr ((before_hostBase hx hmeta).mp hbefore)

theorem lt_of_not_before {id : String} (h : IsIdentifier id) (hafter : ¬ Before (hostBase id))
    (rest : String) : genericExpr < "^" ++ hostBase id ++ rest := by
  obtain ⟨x, xs, hx, hmeta⟩ := firstChar h
  have hne : x ≠ '(' := by
    rintro rfl
    exact hmeta (by decide)
  have hge : '(' ≤ x := not_lt.mp fun hlt => hafter ((before_hostBase hx hmeta).mpr hlt)
  exact (order_of_firstChar hx hmeta rest).2.mpr (lt_of_le_of_ne hge (Ne.symm hne))

/-- A base path before the route of the manager and one after it differ at a character that
is not `.`. -/
theorem differ_of_before {a b : String} (ha : IsIdentifier a) (hb : IsIdentifier b)
    (hbefore : Before (hostBase a)) (hafter : ¬ Before (hostBase b)) :
    ∃ x y, (hostBase a).toList[9]? = some x ∧ x ≠ '.' ∧ (hostBase b).toList[9]? = some y ∧
      x ≠ y := by
  obtain ⟨x, xs, hx, hmetax⟩ := firstChar ha
  obtain ⟨y, ys, hy, hmetay⟩ := firstChar hb
  have hxlt := (before_hostBase hx hmetax).mp hbefore
  have hylt : ¬ y < '(' := fun hlt => hafter ((before_hostBase hy hmetay).mpr hlt)
  have hat : ∀ {id : String} {z : Char} {zs : List Char}, id.toList ++ ['/'] = z :: zs →
      (hostBase id).toList[9]? = some z := by
    intro id z zs hz
    have hlist : (hostBase id).toList = "/service/".toList ++ z :: zs := by
      rw [← hz]
      simp [hostBase, String.toList_append]
    rw [hlist]
    rfl
  refine ⟨x, y, hat hx, ?_, hat hy, ?_⟩
  · rintro rfl
    exact absurd hxlt (by decide)
  · rintro rfl
    exact hylt hxlt

/-! ### Which paths match -/

theorem isSome_regexMatch (expr text : String) : (regexMatch expr text).isSome
    = (run (compile expr.toList) text.toList).isSome := Option.isSome_map

theorem compile_expr {stem : String} (h : IsIdentifier stem) (rest : String) :
    compile ("^" ++ stem ++ rest).toList = ofText stem.toList ++ compile rest.toList := by
  have hlist : ("^" ++ stem ++ rest).toList = '^' :: (stem.toList ++ rest.toList) := by
    simp [String.toList_append]
  rw [hlist, compile, compile_append h.isPlain]

theorem expr_assoc (base name rest : String) :
    "^" ++ base ++ name ++ rest = "^" ++ (base ++ name) ++ rest := by
  rw [← String.append_assoc]

theorem historyExpr_eq (c : RoutedCollector) :
    historyExpr c = "^" ++ (c.basePath ++ c.name) ++ "/(.*)/history$" := expr_assoc _ _ _

theorem toList_path (c : RoutedCollector) (r : String) : (c.path r).toList
    = (c.basePath ++ c.name).toList ++ '/' :: (r.toList ++ '/' :: "history".toList) := by
  simp [RoutedCollector.path, String.toList_append]

/-- A path of a collector matches its own route, and the group is the ressource. -/
theorem regexMatch_own {c : RoutedCollector} (h : IsIdentifier (c.basePath ++ c.name))
    {r : String} (hr : IsPart r) : regexMatch (historyExpr c) (c.path r) = some [r] := by
  have hitems : compile "/(.*)/history$".toList
      = .lit '/' :: .group isLine :: .lit '/' :: ofText "history".toList := rfl
  have hlast : run (ofText "history".toList) "history".toList = some [] := by decide
  unfold regexMatch
  rw [historyExpr_eq, compile_expr h, toList_path, run_ofText_append h.isLine, hitems, run,
    if_pos rfl, run_group_lit (fun d hd => (hr d hd).2.2.2) hlast (by decide)]
  simp

/-- What the route of another collector matches begins with a match of its name. -/
theorem catches_of_regexMatch {m n : RoutedCollector} (hm : IsIdentifier (m.basePath ++ m.name))
    (hn : IsIdentifier (n.basePath ++ n.name)) {r : String} (hr : IsPart r)
    (h : (regexMatch (historyExpr m) (n.path r)).isSome = true) :
    (regexMatch ("^" ++ (m.basePath ++ m.name) ++ "/(.*)$") (n.basePath ++ n.name ++ "/")).isSome
      = true := by
  have hitems : compile "/(.*)/history$".toList
      = .lit '/' :: .group isLine :: .lit '/' :: ofText "history".toList := rfl
  rw [isSome_regexMatch, historyExpr_eq, compile_expr hm, hitems, isSome_run_append,
    toList_path] at h
  obtain ⟨pre, post, hsplit, hpre, hpost⟩ := h
  -- Two slashes are left for the rest of the route.
  have hcount : 2 ≤ post.count '/' := litCount_le_of_run '/' hpost
  obtain ⟨x, rest, rfl, hx, -⟩ := (isSome_run_single (i := .lit '/') trivial _ post).mp hpost
  obtain rfl : x = '/' := by simpa [Item.accepts] using hx
  rw [isSome_regexMatch, compile_expr hm, isSome_run_append]
  -- So the name matches a beginning of the other name.
  have hbegin : ∃ g, (n.basePath ++ n.name).toList ++ ['/'] = pre ++ '/' :: g ∧
      ∀ c ∈ g, isLine c = true := by
    rcases List.append_eq_append_iff.mp hsplit with ⟨a, ha, hrest⟩ | ⟨b, hb, hrest⟩
    · cases a with
      | nil => exact ⟨[], by rw [ha, List.append_nil], by simp⟩
      | cons y a =>
          -- The name would reach into the ressource, and one slash would be left.
          have heq : r.toList ++ '/' :: "history".toList = a ++ '/' :: rest :=
            (List.cons.inj hrest).2
          have hzero : r.toList.count '/' = 0 :=
            List.count_eq_zero.mpr fun hmem => (hr '/' hmem).1 rfl
          have hone : (r.toList ++ '/' :: "history".toList).count '/' = 1 := by
            rw [List.count_append, hzero]
            decide
          rw [heq, List.count_append] at hone
          omega
    · cases b with
      | nil => exact ⟨[], by rw [hb, List.append_nil], by simp⟩
      | cons y b =>
          obtain rfl : y = '/' := (List.cons.inj hrest).1.symm
          refine ⟨b ++ ['/'], by rw [hb]; simp, fun c hc => ?_⟩
          rcases List.mem_append.mp hc with hc | hc
          · exact hn.isLine c (by rw [hb]; simp [hc])
          · rw [List.mem_singleton.mp hc]
            decide
  obtain ⟨g, hg, hline⟩ := hbegin
  have hname : (n.basePath ++ n.name ++ "/").toList = pre ++ '/' :: g := by
    rw [← hg, String.toList_append]
    rfl
  have hrun : (run (compile "/(.*)$".toList) ('/' :: g)).isSome = true := by
    show (run [.lit '/', .group isLine] ('/' :: g)).isSome = true
    rw [isSome_run_single (i := .lit '/') trivial]
    refine ⟨'/', g, rfl, by simp [Item.accepts], ?_⟩
    rw [isSome_run_group]
    exact ⟨g, [], (List.append_nil g).symm, hline, rfl⟩
  exact ⟨pre, '/' :: g, hname, hpre, hrun⟩

/-- Where two names differ in a character that is not `.`, the route of the one does not match
the paths of the other. -/
theorem regexMatch_eq_none_of_differ {base rest text : String} (h : IsIdentifier base)
    {j : Nat} {x y : Char} (hx : base.toList[j]? = some x) (hdot : x ≠ '.')
    (hy : text.toList[j]? = some y) (hne : x ≠ y) :
    regexMatch ("^" ++ base ++ rest) text = none := by
  rw [← Option.not_isSome_iff_eq_none, isSome_regexMatch, compile_expr h]
  intro hmatch
  have hxy := getElem?_of_run_ofText hmatch hx hdot
  rw [hy] at hxy
  exact hne (Option.some.inj hxy).symm

theorem IsPart.isLine {name : String} (h : IsPart name) :
    ∀ c ∈ name.toList, Regex.isLine c = true := fun c hc => (h c hc).2.2.2

theorem IsPart.count_slash {name : String} (h : IsPart name) : name.toList.count '/' = 0 :=
  List.count_eq_zero.mpr fun hc => (h '/' hc).1 rfl

/-- A path of a service with three parts matches the route of the manager. -/
theorem regexMatch_generic {c : RoutedCollector} {id r : String} (hbase : c.basePath = hostBase id)
    (hid : IsIdentifier id) (hname : IsPart c.name) (hr : IsPart r) :
    regexMatch genericExpr (c.path r) = some [id, c.name, r] := by
  have hitems : compile genericExpr.toList
      = ofText "/service/".toList ++ .group Regex.isLine :: .lit '/' :: .group Regex.isLine
          :: .lit '/' :: .group Regex.isLine :: .lit '/' :: ofText "history".toList := rfl
  have hpath : (c.path r).toList = "/service/".toList ++ (id.toList ++ '/' :: (c.name.toList ++ '/'
      :: (r.toList ++ '/' :: "history".toList))) := by
    rw [toList_path, hbase]
    simp [hostBase, String.toList_append]
  have hlast : run (ofText "history".toList) "history".toList = some [] := by decide
  have hservice : IsIdentifier "/service/" := by decide
  -- Each group leaves the slashes that the groups after it need.
  have hres := run_group_lit (p := Regex.isLine) (c := '/') hr.isLine hlast (by decide)
  have hcid := run_group_lit (p := Regex.isLine) (c := '/') hname.isLine hres (by
    rw [List.count_append, hr.count_slash]
    decide)
  have hserv := run_group_lit (p := Regex.isLine) (c := '/') hid.isLine hcid (by
    rw [List.count_append, List.count_cons_self, List.count_append, hname.count_slash,
      hr.count_slash]
    decide)
  unfold regexMatch
  rw [hitems, hpath, run_ofText_append hservice.isLine, hserv]
  simp

/-- A route that takes no path of a history. -/
def Silent (expr : String) : Prop :=
  ∀ path : String, path.toList.getLast? = some 'y' → regexMatch expr path = none

theorem silent_of_lit {expr : String} (is : List Item) (c : Char)
    (h : compile expr.toList = is ++ [.lit c]) (hc : c ≠ 'y') : Silent expr := by
  intro path hpath
  rw [← Option.not_isSome_iff_eq_none, isSome_regexMatch, h]
  intro hmatch
  rw [getLast?_of_run_lit hmatch] at hpath
  exact hc (Option.some.inj hpath)

theorem silent_of_since {expr : String} (is : List Item)
    (h : compile expr.toList = is ++ [.lit '=', .group isDecimal]) : Silent expr := by
  intro path hpath
  rw [← Option.not_isSome_iff_eq_none, isSome_regexMatch, h]
  intro hmatch
  obtain ⟨x, hlast, hx⟩ := getLast?_of_run_lit_group hmatch
  rw [hlast, Option.some.injEq] at hpath
  subst hpath
  exact absurd hx (by decide)

/-- An expression by its characters, whose last item is a character. -/
theorem silent_ofList_lit {cs : List Char} {c : Char} (h : (compile cs).getLast? = some (.lit c))
    (hc : c ≠ 'y') : Silent (String.ofList cs) := by
  obtain ⟨is, his⟩ := List.getLast?_eq_some_iff.mp h
  exact silent_of_lit is c (by rw [String.toList_ofList, his]) hc

theorem silent_ofList_since {cs : List Char}
    (hgroup : (compile cs).getLast? = some (.group isDecimal))
    (hlit : (compile cs).dropLast.getLast? = some (.lit '=')) : Silent (String.ofList cs) := by
  obtain ⟨is, his⟩ := List.getLast?_eq_some_iff.mp hgroup
  rw [his, List.dropLast_concat] at hlit
  obtain ⟨js, hjs⟩ := List.getLast?_eq_some_iff.mp hlit
  refine silent_of_since js ?_
  rw [String.toList_ofList, his, hjs, List.append_assoc]
  rfl

/-- Of the routes of the manager one takes paths of a history. -/
theorem generic_or_silent : ∀ e ∈ managerRoutes, e = genericRoute ∨ Silent e.1 := by
  intro e he
  simp only [managerRoutes, List.mem_cons, List.not_mem_nil, or_false] at he
  rcases he with rfl | rfl | rfl | rfl | rfl | rfl | rfl | rfl | rfl | rfl | rfl
  · exact .inr (silent_ofList_lit rfl (by decide : '/' ≠ 'y'))
  · exact .inr (silent_ofList_lit rfl (by decide : 'l' ≠ 'y'))
  · exact .inr (silent_ofList_since rfl rfl)
  · exact .inr (silent_ofList_lit rfl (by decide : 's' ≠ 'y'))
  · exact .inr (silent_ofList_lit rfl (by decide : 'g' ≠ 'y'))
  · exact .inr (silent_ofList_since rfl rfl)
  · exact .inr (silent_ofList_lit rfl (by decide : 'l' ≠ 'y'))
  · exact .inl rfl
  · exact .inr (silent_ofList_since rfl rfl)
  · exact .inr (silent_ofList_lit rfl (by decide : 'h' ≠ 'y'))
  · exact .inr (silent_ofList_lit rfl (by decide : 'n' ≠ 'y'))

/-- Of the routes of a collector only its own takes paths of a history. -/
theorem silent_tail {c : RoutedCollector} (h : IsIdentifier (c.basePath ++ c.name)) :
    ∀ e ∈ (metricRoutes c).tail, Silent e.1 := by
  intro e he
  simp only [metricRoutes, List.tail_cons, List.mem_cons, List.not_mem_nil, or_false] at he
  rcases he with rfl | rfl
  · refine silent_of_since (ofText (c.basePath ++ c.name).toList
      ++ compile "/(.*)/history.since".toList) ?_
    show compile ("^" ++ c.basePath ++ c.name ++ "/(.*)/history.since=([0-9.]*)$").toList = _
    rw [expr_assoc, compile_expr h, List.append_assoc]
    rfl
  · refine silent_of_lit (ofText (c.basePath ++ c.name).toList
      ++ compile "/(.*)/grap".toList) 'h' ?_ (by decide)
    show compile ("^" ++ c.basePath ++ c.name ++ "/(.*)/graph$").toList = _
    rw [expr_assoc, compile_expr h, List.append_assoc]
    rfl

/-! ### The invariant -/

/-- A route of a service that comes after the one of the manager. -/
def IsAfter (expr : String) : Prop :=
  (∃ rest, expr = "^" ++ "/service/" ++ rest) ∧ genericExpr < expr

/-- The base path of a collector is that of the system or of some service. -/
def Placed (c : RoutedCollector) : Prop :=
  (c.haveService = false ∧ c.basePath = "/system/") ∨
    (c.haveService = true ∧ ∃ id, IsIdentifier id ∧ c.basePath = hostBase id)

/-- A route of the table, when the collectors `live` exist. -/
def Known (live : List RoutedCollector) (e : String × Route) : Prop :=
  e = genericRoute ∨ Silent e.1 ∨ IsAfter e.1 ∨ ∃ c ∈ live, Direct c ∧ e = ownRoute c

/-- The table and the collectors that exist:

- `own`: the own route of a direct collector is in the table, if the collector is enabled;
- `apart`: no direct collector shadows an enabled one. -/
structure Routed (table : List (String × Route)) (live : List RoutedCollector) (next : Nat) :
    Prop where
  sorted : OrderedMap.Sorted table
  generic : genericRoute ∈ table
  routes : ∀ e ∈ table, Known live e
  placed : ∀ c ∈ live, Placed c
  bound : ∀ c ∈ live, c.obj < next
  distinct : ∀ c ∈ live, ∀ d ∈ live, c.obj = d.obj → c = d
  own : ∀ c ∈ live, Direct c → IsIdentifier c.name ∧ (c.enable = true → ownRoute c ∈ table)
  apart : ∀ c ∈ live, ∀ d ∈ live, Direct c → Direct d → d.enable = true → c.obj ≠ d.obj →
    ¬ Shadows c d

theorem Placed.isIdentifier {c : RoutedCollector} (h : Placed c) (hname : IsIdentifier c.name) :
    IsIdentifier (c.basePath ++ c.name) := by
  refine isIdentifier_append ?_ hname
  rcases h with ⟨-, hbase⟩ | ⟨-, id, hid, hbase⟩
  · rw [hbase]
    decide
  · rw [hbase]
    exact isIdentifier_hostBase hid

theorem Direct.before {c : RoutedCollector} (h : Direct c) (hserv : c.haveService = true) :
    Before c.basePath := by
  rcases h with h | h
  · exact absurd (hserv.symm.trans h) (by decide)
  · exact h

theorem getLast?_path (c : RoutedCollector) (r : String) :
    (c.path r).toList.getLast? = some 'y' := by
  rw [toList_path, ← List.cons_append, ← List.append_assoc, List.getLast?_append,
    List.getLast?_cons]
  rfl

/-- A path of the system matches no route under `/service/`. -/
theorem regexMatch_service_system {c : RoutedCollector} (hbase : c.basePath = "/system/")
    (rest r : String) : regexMatch ("^" ++ "/service/" ++ rest) (c.path r) = none := by
  have hy : (c.path r).toList[2]? = some 'y' := by
    rw [toList_path, hbase, String.toList_append]
    rfl
  exact regexMatch_eq_none_of_differ (by decide) (j := 2) (x := 'e') rfl (by decide) hy
    (by decide)

/-- For a path of an enabled direct collector its own route answers. -/
theorem answers_own {table : List (String × Route)} {live : List RoutedCollector} {next : Nat}
    (h : Routed table live next) {c : RoutedCollector} (hc : c ∈ live) (hdirect : Direct c)
    (henable : c.enable = true) {r : String} (hr : IsPart r) :
    table.findSome? (fun e => (regexMatch e.1 (c.path r)).map (fun gs => (e.2, gs)))
      = some (.doGetHistory c.obj, [r]) := by
  obtain ⟨hname, hroute⟩ := h.own c hc hdirect
  have hown := hroute henable
  have hplaced := h.placed c hc
  have hstem := hplaced.isIdentifier hname
  have hmatch : (regexMatch (ownRoute c).1 (c.path r)).map (fun gs => ((ownRoute c).2, gs))
      = some (.doGetHistory c.obj, [r]) := by
    rw [ownRoute, regexMatch_own hstem hr]
    rfl
  -- A route after the one of the manager takes no path of the system.
  have hservice : ∀ expr rest : String, expr = "^" ++ "/service/" ++ rest → genericExpr ≤ expr →
      (regexMatch expr (c.path r)).isSome = true → historyExpr c ≤ expr := by
    intro expr rest hexpr hle hsome
    rcases hplaced with ⟨-, hbase⟩ | ⟨hserv, id, hid, hbase⟩
    · rw [hexpr, regexMatch_service_system hbase] at hsome
      exact absurd hsome (by simp)
    · have hbefore : Before (hostBase id) := hbase ▸ hdirect.before hserv
      have hlt := lt_of_before hid hbefore (c.name ++ "/(.*)/history$")
      rw [historyExpr, hbase, String.append_assoc]
      exact (hlt.trans_le hle).le
  refine OrderedMap.findSome?_of_least h.sorted hown hmatch fun e he hsome => ?_
  rw [Option.isSome_map] at hsome
  rcases h.routes e he with rfl | hsilent | ⟨⟨rest, hexpr⟩, hlt⟩ | ⟨d, hd, hddirect, rfl⟩
  · exact hservice _ "(.*)/(.*)/(.*)/history$" (by decide) le_rfl hsome
  · rw [hsilent _ (getLast?_path c r)] at hsome
    exact absurd hsome (by simp)
  · exact hservice _ rest hexpr hlt.le hsome
  · -- An own route before this one would be of a collector that shadows this one.
    by_contra hle
    have hdname := (h.own d hd hddirect).1
    have hcatches := catches_of_regexMatch ((h.placed d hd).isIdentifier hdname) hstem hr hsome
    have hobj : d.obj = c.obj := by
      by_contra hne
      exact h.apart d hd c hc hddirect hdirect henable hne ⟨(not_le.mp hle).le, hcatches⟩
    exact hle (h.distinct d hd c hc hobj ▸ le_rfl)

/-- For a path of another collector the route of the manager answers. -/
theorem answers_generic {table : List (String × Route)} {live : List RoutedCollector}
    {next : Nat} (h : Routed table live next) {c : RoutedCollector} {id : String}
    (hbase : c.basePath = hostBase id) (hid : IsIdentifier id) (hafter : ¬ Before c.basePath)
    (hname : IsPart c.name) {r : String} (hr : IsPart r) :
    table.findSome? (fun e => (regexMatch e.1 (c.path r)).map (fun gs => (e.2, gs)))
      = some (.doGetCollectorHistory, [id, c.name, r]) := by
  have hmatch : (regexMatch genericRoute.1 (c.path r)).map (fun gs => (genericRoute.2, gs))
      = some (.doGetCollectorHistory, [id, c.name, r]) := by
    rw [genericRoute, regexMatch_generic hbase hid hname hr]
    rfl
  refine OrderedMap.findSome?_of_least h.sorted h.generic hmatch fun e he hsome => ?_
  rw [Option.isSome_map] at hsome
  rcases h.routes e he with rfl | hsilent | ⟨-, hlt⟩ | ⟨d, hd, hddirect, rfl⟩
  · exact le_rfl
  · rw [hsilent _ (getLast?_path c r)] at hsome
    exact absurd hsome (by simp)
  · exact hlt.le
  · -- The name of a direct collector differs from this path.
    exfalso
    rw [ownRoute, historyExpr, String.append_assoc] at hsome
    rcases h.placed d hd with ⟨-, hdbase⟩ | ⟨hserv, did, hdid, hdbase⟩
    · have he : (c.path r).toList[2]? = some 'e' := by
        rw [toList_path, hbase, hostBase]
        simp [String.toList_append]
      rw [hdbase, regexMatch_eq_none_of_differ (by decide) (j := 2) (x := 'y') rfl (by decide)
        he (by decide)] at hsome
      exact absurd hsome (by simp)
    · have hdbefore : Before (hostBase did) := hdbase ▸ hddirect.before hserv
      obtain ⟨x, y, hx, hdot, hy, hne⟩ := differ_of_before hdid hid hdbefore (hbase ▸ hafter)
      have hy' : (c.path r).toList[9]? = some y := by
        rw [toList_path, hbase, String.toList_append, List.append_assoc,
          List.getElem?_append_left (List.getElem?_eq_some_iff.mp hy).1, hy]
      rw [hdbase, regexMatch_eq_none_of_differ (isIdentifier_hostBase hdid) hx hdot hy' hne]
        at hsome
      exact absurd hsome (by simp)

/-! ### Changes of the table and of the collectors -/

section
variable {table : List (String × Route)} {live : List RoutedCollector} {next : Nat}

theorem not_silent_generic : ¬ Silent genericExpr := by
  intro h
  have hnone := h "/service/a/b/c/history" (by decide)
  exact absurd hnone (by decide)

theorem not_silent_own {c : RoutedCollector} (h : IsIdentifier (c.basePath ++ c.name)) :
    ¬ Silent (historyExpr c) := by
  intro hsilent
  have hnone := hsilent (c.path "r") (getLast?_path c "r")
  rw [regexMatch_own h (by decide)] at hnone
  exact absurd hnone (by simp)

/-- The own route of a direct collector is not the one of the manager, and none after it. -/
theorem own_not_service {c : RoutedCollector} (hplaced : Placed c) (hdirect : Direct c)
    (hname : IsIdentifier c.name) (rest : String)
    (hle : genericExpr ≤ "^" ++ "/service/" ++ rest) :
    historyExpr c ≠ "^" ++ "/service/" ++ rest := by
  intro heq
  rcases hplaced with ⟨hserv, hbase⟩ | ⟨hserv, id, hid, hbase⟩
  · have hmatch := regexMatch_own (Placed.isIdentifier (.inl ⟨hserv, hbase⟩) hname)
      (show IsPart "r" by decide)
    rw [heq, regexMatch_service_system hbase] at hmatch
    exact absurd hmatch (by simp)
  · have hlt := lt_of_before hid (hbase ▸ hdirect.before hserv) (c.name ++ "/(.*)/history$")
    rw [← hbase, ← String.append_assoc, ← historyExpr, heq] at hlt
    exact absurd hlt (not_lt.mpr hle)

/-- A route that takes no path of a history, or comes after the one of the manager, changes no
answer. -/
theorem Routed.insert (h : Routed table live next) {e : String × Route}
    (hnew : Silent e.1 ∨ IsAfter e.1) :
    Routed (OrderedMap.insert e.1 e.2 table) live next where
  sorted := OrderedMap.sorted_insert _ _ h.sorted
  generic := by
    refine OrderedMap.mem_insert_of_ne _ h.generic fun heq => ?_
    rcases hnew with hsilent | ⟨-, hlt⟩
    · rw [← show genericExpr = e.1 from heq] at hsilent
      exact not_silent_generic hsilent
    · exact hlt.ne heq
  routes := by
    intro e' he'
    rcases OrderedMap.eq_or_mem_of_mem_insert he' with rfl | hmem
    · exact hnew.elim (fun hs => .inr (.inl hs)) (fun ha => .inr (.inr (.inl ha)))
    · exact h.routes e' hmem
  placed := h.placed
  bound := h.bound
  distinct := h.distinct
  own := by
    intro c hc hdirect
    obtain ⟨hname, hown⟩ := h.own c hc hdirect
    refine ⟨hname, fun henable => OrderedMap.mem_insert_of_ne _ (hown henable) fun heq => ?_⟩
    rcases hnew with hsilent | ⟨⟨rest, hexpr⟩, hlt⟩
    · rw [← show historyExpr c = e.1 from heq] at hsilent
      exact not_silent_own ((h.placed c hc).isIdentifier hname) hsilent
    · rw [hexpr] at hlt heq
      exact own_not_service (h.placed c hc) hdirect hname rest hlt.le heq
  apart := h.apart

theorem Routed.add_routes (h : Routed table live next) {routes : List (String × Route)}
    (hnew : ∀ e ∈ routes, Silent e.1 ∨ IsAfter e.1) :
    Routed (setRegexes table routes) live next := by
  induction routes generalizing table with
  | nil => exact h
  | cons e routes ih =>
      exact ih (h.insert (hnew e List.mem_cons_self))
        fun e' he' => hnew e' (List.mem_cons_of_mem _ he')

/-- A new object is told apart from the old ones. -/
theorem bound_cons {c : RoutedCollector} (hobj : c.obj = next)
    (h : ∀ d ∈ live, d.obj < next) : ∀ d ∈ c :: live, d.obj < next + 1 := by
  intro d hd
  rcases List.mem_cons.mp hd with rfl | hd
  · omega
  · have hlt := h d hd
    omega

theorem distinct_cons {c : RoutedCollector} (hobj : c.obj = next)
    (hbound : ∀ d ∈ live, d.obj < next)
    (h : ∀ d ∈ live, ∀ d' ∈ live, d.obj = d'.obj → d = d') :
    ∀ d ∈ c :: live, ∀ d' ∈ c :: live, d.obj = d'.obj → d = d' := by
  intro d hd d' hd' heq
  rcases List.mem_cons.mp hd with rfl | hdl
  · rcases List.mem_cons.mp hd' with rfl | hdl'
    · rfl
    · have hlt := hbound d' hdl'
      omega
  · rcases List.mem_cons.mp hd' with rfl | hdl'
    · have hlt := hbound d hdl
      omega
    · exact h d hdl d' hdl' heq

theorem known_cons (c : RoutedCollector) {e : String × Route} (h : Known live e) :
    Known (c :: live) e := by
  rcases h with hg | hs | ha | ⟨d, hd, hdd, hown⟩
  · exact .inl hg
  · exact .inr (.inl hs)
  · exact .inr (.inr (.inl ha))
  · exact .inr (.inr (.inr ⟨d, List.mem_cons_of_mem _ hd, hdd, hown⟩))

theorem placed_cons {c : RoutedCollector} (hplaced : Placed c) (h : ∀ d ∈ live, Placed d) :
    ∀ d ∈ c :: live, Placed d := by
  intro d hd
  rcases List.mem_cons.mp hd with rfl | hd
  · exact hplaced
  · exact h d hd

/-- The collector shadows no enabled one of the others, and if it is enabled none of them
shadows it. -/
def Apart (live : List RoutedCollector) (c : RoutedCollector) : Prop :=
  ∀ n ∈ live, Direct n →
    (n.enable = true → ¬ Shadows c n) ∧ (c.enable = true → ¬ Shadows n c)

instance (live : List RoutedCollector) (c : RoutedCollector) : Decidable (Apart live c) :=
  inferInstanceAs (Decidable (∀ n ∈ live, Direct n →
    (n.enable = true → ¬ Shadows c n) ∧ (c.enable = true → ¬ Shadows n c)))

theorem apart_cons {c : RoutedCollector} (hapart : Direct c → Apart live c)
    (h : ∀ c ∈ live, ∀ d ∈ live, Direct c → Direct d → d.enable = true → c.obj ≠ d.obj →
      ¬ Shadows c d) :
    ∀ d ∈ c :: live, ∀ d' ∈ c :: live, Direct d → Direct d' → d'.enable = true →
      d.obj ≠ d'.obj → ¬ Shadows d d' := by
  intro d hd d' hd' hdirect hdirect' henable hne
  rcases List.mem_cons.mp hd with rfl | hdl
  · rcases List.mem_cons.mp hd' with rfl | hdl'
    · exact absurd rfl hne
    · exact (hapart hdirect d' hdl' hdirect').1 henable
  · rcases List.mem_cons.mp hd' with rfl | hdl'
    · exact (hapart hdirect' d hdl hdirect).2 henable
    · exact h d hdl d' hdl' hdirect hdirect' henable hne

/-- A new collector with its own route. -/
theorem Routed.insert_own (h : Routed table live next) {c : RoutedCollector}
    (hobj : c.obj = next) (hplaced : Placed c) (hdirect : Direct c) (hname : IsIdentifier c.name)
    (hapart : Apart live c) :
    Routed (OrderedMap.insert (historyExpr c) (.doGetHistory c.obj) table) (c :: live)
      (next + 1) where
  sorted := OrderedMap.sorted_insert _ _ h.sorted
  generic := by
    refine OrderedMap.mem_insert_of_ne _ h.generic fun heq => ?_
    exact own_not_service hplaced hdirect hname "(.*)/(.*)/(.*)/history$" (by decide) heq.symm
  routes := by
    intro e he
    rcases OrderedMap.eq_or_mem_of_mem_insert he with rfl | hmem
    · exact .inr (.inr (.inr ⟨c, List.mem_cons_self, hdirect, rfl⟩))
    · exact known_cons c (h.routes e hmem)
  placed := placed_cons hplaced h.placed
  bound := bound_cons hobj h.bound
  distinct := distinct_cons hobj h.bound h.distinct
  own := by
    intro d hd hdirect'
    rcases List.mem_cons.mp hd with rfl | hd
    · exact ⟨hname, fun _ => OrderedMap.self_mem_insert _ _ _⟩
    · obtain ⟨hdname, hown⟩ := h.own d hd hdirect'
      refine ⟨hdname, fun henable =>
        OrderedMap.mem_insert_of_ne _ (hown henable) fun heq => ?_⟩
      -- With one expression for both, the new collector would shadow the old one.
      have hexpr : historyExpr d = historyExpr c := heq
      have hdstem := (h.placed d hd).isIdentifier hdname
      have hmatch : (regexMatch (historyExpr c) (d.path "r")).isSome = true := by
        rw [← hexpr, regexMatch_own hdstem (by decide)]
        rfl
      exact (hapart d hd hdirect').1 henable ⟨hexpr.ge,
        catches_of_regexMatch (hplaced.isIdentifier hname) hdstem (by decide) hmatch⟩
  apart := apart_cons (fun _ => hapart) h.apart

/-- A new collector without a route. -/
theorem Routed.cons (h : Routed table live next) {c : RoutedCollector}
    (hobj : c.obj = next) (hplaced : Placed c)
    (hnew : Direct c → c.enable = false ∧ IsIdentifier c.name ∧ Apart live c) :
    Routed table (c :: live) (next + 1) where
  sorted := h.sorted
  generic := h.generic
  routes := fun e he => known_cons c (h.routes e he)
  placed := placed_cons hplaced h.placed
  bound := bound_cons hobj h.bound
  distinct := distinct_cons hobj h.bound h.distinct
  own := by
    intro d hd hdirect
    rcases List.mem_cons.mp hd with rfl | hd
    · obtain ⟨hdisabled, hname, -⟩ := hnew hdirect
      exact ⟨hname, fun henable => absurd (henable.symm.trans hdisabled) (by decide)⟩
    · exact h.own d hd hdirect
  apart := apart_cons (fun hdirect => (hnew hdirect).2.2) h.apart

/-- Collectors without a route of their own may go. -/
theorem Routed.of_subset (h : Routed table live next) {live' : List RoutedCollector}
    (hsub : ∀ c ∈ live', c ∈ live) (hdirect : ∀ c ∈ live, Direct c → c ∈ live') :
    Routed table live' next where
  sorted := h.sorted
  generic := h.generic
  routes := by
    intro e he
    rcases h.routes e he with hg | hs | ha | ⟨d, hd, hdd, hown⟩
    · exact .inl hg
    · exact .inr (.inl hs)
    · exact .inr (.inr (.inl ha))
    · exact .inr (.inr (.inr ⟨d, hdirect d hd hdd, hdd, hown⟩))
  placed := fun c hc => h.placed c (hsub c hc)
  bound := fun c hc => h.bound c (hsub c hc)
  distinct := fun c hc d hd => h.distinct c (hsub c hc) d (hsub d hd)
  own := fun c hc => h.own c (hsub c hc)
  apart := fun c hc d hd => h.apart c (hsub c hc) d (hsub d hd)

/-- What a route knows of a collector. -/
def SameRoute (d c : RoutedCollector) : Prop :=
  d.basePath = c.basePath ∧ d.name = c.name ∧ d.haveService = c.haveService ∧
    d.enable = c.enable

theorem SameRoute.direct {d c : RoutedCollector} (h : SameRoute d c) : Direct d ↔ Direct c := by
  unfold Direct
  rw [h.1, h.2.2.1]

theorem SameRoute.historyExpr_eq {d c : RoutedCollector} (h : SameRoute d c) :
    historyExpr d = historyExpr c := by
  unfold historyExpr
  rw [h.1, h.2.1]

theorem SameRoute.placed {d c : RoutedCollector} (h : SameRoute d c) (hc : Placed c) :
    Placed d := by
  unfold Placed
  rw [h.1, h.2.2.1]
  exact hc

theorem SameRoute.shadows {d c d' c' : RoutedCollector} (h : SameRoute d c)
    (h' : SameRoute d' c') : Shadows d d' ↔ Shadows c c' := by
  unfold Shadows
  rw [h.historyExpr_eq, h'.historyExpr_eq, h.1, h.2.1, h'.1, h'.2.1]

/-- The collectors may change where no route of their own is concerned: in their ressources, or
with a base path after the route of the manager. -/
theorem Routed.map (h : Routed table live next) {f : RoutedCollector → RoutedCollector}
    (hobj : ∀ c ∈ live, (f c).obj = c.obj)
    (hf : ∀ c ∈ live, SameRoute (f c) c ∨ (¬ Direct c ∧ ¬ Direct (f c) ∧ Placed (f c))) :
    Routed table (live.map f) next := by
  have hsame : ∀ c ∈ live, Direct (f c) → SameRoute (f c) c := fun c hc hd =>
    (hf c hc).resolve_right fun hnot => hnot.2.1 hd
  refine { h with routes := ?_, placed := ?_, bound := ?_, distinct := ?_, own := ?_, apart := ?_ }
  · intro e he
    rcases h.routes e he with hg | hs | ha | ⟨c, hc, hdirect, hown⟩
    · exact .inl hg
    · exact .inr (.inl hs)
    · exact .inr (.inr (.inl ha))
    · have hs : SameRoute (f c) c := (hf c hc).resolve_right fun hnot => hnot.1 hdirect
      refine .inr (.inr (.inr ⟨f c, List.mem_map_of_mem hc, hs.direct.mpr hdirect, ?_⟩))
      rw [hown, ownRoute, ownRoute, hs.historyExpr_eq, hobj c hc]
  · intro d hd
    obtain ⟨c, hc, rfl⟩ := List.mem_map.mp hd
    rcases hf c hc with hs | ⟨-, -, hplaced⟩
    · exact hs.placed (h.placed c hc)
    · exact hplaced
  · intro d hd
    obtain ⟨c, hc, rfl⟩ := List.mem_map.mp hd
    rw [hobj c hc]
    exact h.bound c hc
  · intro d hd d' hd' heq
    obtain ⟨c, hc, rfl⟩ := List.mem_map.mp hd
    obtain ⟨c', hc', rfl⟩ := List.mem_map.mp hd'
    rw [hobj c hc, hobj c' hc'] at heq
    rw [h.distinct c hc c' hc' heq]
  · intro d hd hdirect
    obtain ⟨c, hc, rfl⟩ := List.mem_map.mp hd
    have hs := hsame c hc hdirect
    obtain ⟨hname, hown⟩ := h.own c hc (hs.direct.mp hdirect)
    rw [ownRoute, hs.historyExpr_eq, hobj c hc, hs.2.1, hs.2.2.2]
    exact ⟨hname, hown⟩
  · intro d hd d' hd' hdirect hdirect' henable hne
    obtain ⟨c, hc, rfl⟩ := List.mem_map.mp hd
    obtain ⟨c', hc', rfl⟩ := List.mem_map.mp hd'
    have hs := hsame c hc hdirect
    have hs' := hsame c' hc' hdirect'
    rw [hobj c hc, hobj c' hc'] at hne
    rw [hs'.2.2.2] at henable
    rw [hs.shadows hs']
    exact h.apart c hc c' hc' (hs.direct.mp hdirect) (hs'.direct.mp hdirect') henable hne

/-- The routes of a collector that is not direct come after the one of the manager. -/
theorem after_metricRoutes {c : RoutedCollector} (hplaced : Placed c) (hdirect : ¬ Direct c) :
    ∀ e ∈ metricRoutes c, IsAfter e.1 := by
  rcases hplaced with ⟨hserv, -⟩ | ⟨-, id, hid, hbase⟩
  · exact absurd (.inl hserv) hdirect
  · have hafter : ∀ rest, IsAfter ("^" ++ c.basePath ++ c.name ++ rest) := by
      intro rest
      have hlt := lt_of_not_before hid (fun hb => hdirect (.inr (hbase ▸ hb))) (c.name ++ rest)
      rw [← String.append_assoc, ← hbase] at hlt
      refine ⟨⟨id ++ "/" ++ (c.name ++ rest), ?_⟩, hlt⟩
      rw [hbase]
      simp only [hostBase, String.append_assoc]
    intro e he
    simp only [metricRoutes, List.mem_cons, List.not_mem_nil, or_false] at he
    rcases he with rfl | rfl | rfl
    · exact hafter _
    · exact hafter _
    · exact hafter _

/-- A new collector with its routes. -/
theorem Routed.add_collector (h : Routed table live next) {c : RoutedCollector}
    (hobj : c.obj = next) (hplaced : Placed c)
    (hnew : Direct c → IsIdentifier c.name ∧ Apart live c) :
    Routed (setRegexes table (metricRoutes c)) (c :: live) (next + 1) := by
  by_cases hdirect : Direct c
  · obtain ⟨hname, hapart⟩ := hnew hdirect
    have hown := h.insert_own hobj hplaced hdirect hname hapart
    exact hown.add_routes fun e he => .inl (silent_tail (hplaced.isIdentifier hname) e he)
  · exact (h.cons hobj hplaced fun hd => absurd hd hdirect).add_routes
      fun e he => .inr (after_metricRoutes hplaced hdirect e he)

theorem sorted_setRegexes (h : OrderedMap.Sorted table) (routes : List (String × Route)) :
    OrderedMap.Sorted (setRegexes table routes) := by
  induction routes generalizing table with
  | nil => exact h
  | cons e routes ih => exact ih (OrderedMap.sorted_insert e.1 e.2 h)

theorem mem_or_mem_of_mem_setRegexes {routes : List (String × Route)} {e : String × Route}
    (h : e ∈ setRegexes table routes) : e ∈ routes ∨ e ∈ table := by
  induction routes generalizing table with
  | nil => exact .inr h
  | cons r routes ih =>
      rcases ih h with hmem | hmem
      · exact .inl (List.mem_cons_of_mem r hmem)
      · rcases OrderedMap.eq_or_mem_of_mem_insert hmem with rfl | hmem
        · exact .inl List.mem_cons_self
        · exact .inr hmem

/-- The table that `init` leaves. -/
theorem routed_start : Routed start.resource [] 0 where
  sorted := sorted_setRegexes OrderedMap.sorted_nil managerRoutes
  generic := by decide
  routes := by
    intro e he
    have hmanager : e ∈ managerRoutes :=
      (mem_or_mem_of_mem_setRegexes he).resolve_right List.not_mem_nil
    exact (generic_or_silent e hmanager).imp_right .inl
  placed := by simp
  bound := by simp
  distinct := by simp
  own := by simp
  apart := by simp

end

end WatchedAgent.Proofs.RouteTable
