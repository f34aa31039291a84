import WatchedAgent.Lib.LuaPattern

/-!
# `WatchedAgent.Lib.LuaGroups`: patterns of Lua with several groups

A pattern where groups and items stand in turn. `LuaPattern` has what an item and a list of
items match; here the groups of a match are given one by one.

* `FirstGroups.cons`: the first match takes the first cut of each part.
* `groupsIn_of_first`: a match at the start of a text is the one that is found.
-/

set_option autoImplicit false

namespace WatchedAgent.Lib.Lua

/-- The groups of a pattern, each with the items before it. Nothing follows the last one. -/
def compileGroups (pattern : String) : List Pattern :=
  (pattern.toList.splitOn ')').filterMap fun part =>
    if '(' ∈ part then
      some ⟨items (part.takeWhile (· != '(')), items ((part.dropWhile (· != '(')).drop 1)⟩
    else none

/-- The cuts the groups allow, each with the texts of the groups and the rest. -/
def groupSplits : List Pattern → List Char → List (List (List Char) × List Char)
  | [], cs => [([], cs)]
  | p :: ps, cs =>
      (splits p.before cs).flatMap fun s =>
        (splits p.group s.2).flatMap fun t => (groupSplits ps t.2).map fun u => (t.1 :: u.1, u.2)

/-- The groups of the match at the start of a text. -/
def groupsAt (ps : List Pattern) (cs : List Char) : Option (List (List Char)) :=
  ((groupSplits ps cs).map Prod.fst).head?

/-- The groups of the first match in a text. -/
def groupsIn (ps : List Pattern) : List Char → Option (List (List Char))
  | [] => groupsAt ps []
  | c :: cs => (groupsAt ps (c :: cs)).or (groupsIn ps cs)

/-- What `s:match(pattern)` gives, one text for each group, `none` for `nil`. -/
def luaMatchGroups (pattern s : String) : Option (List String) :=
  (groupsIn (compileGroups pattern) s.toList).map (fun l => l.map String.ofList)

example : luaMatchGroups "(%a+)=(%d+)" "--n=42" = some ["n", "42"] := by decide

/-- The cut that Lua takes. -/
def FirstGroups (ps : List Pattern) (cs : List Char) (s : List (List Char) × List Char) : Prop :=
  (groupSplits ps cs).head? = some s

theorem firstGroups_nil (cs : List Char) : FirstGroups [] cs ([], cs) := rfl

theorem FirstGroups.cons {p : Pattern} {ps : List Pattern} {cs : List Char}
    {s t : List Char × List Char} {u : List (List Char) × List Char} (hs : First p.before cs s)
    (ht : First p.group s.2 t) (hu : FirstGroups ps t.2 u) :
    FirstGroups (p :: ps) cs (t.1 :: u.1, u.2) := by
  refine head?_flatMap hs (head?_flatMap ht ?_)
  rw [List.head?_map, hu]
  rfl

theorem groupsIn_of_first {ps : List Pattern} {cs : List Char}
    {s : List (List Char) × List Char} (h : FirstGroups ps cs s) :
    groupsIn ps cs = some s.1 := by
  have hat : groupsAt ps cs = some s.1 := by
    unfold groupsAt
    rw [List.head?_map, h]
    rfl
  cases cs with
  | nil => exact hat
  | cons c cs =>
      rw [groupsIn, hat]
      rfl

end WatchedAgent.Lib.Lua
