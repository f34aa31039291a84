import WatchedAgent.Lib.Decimal
import WatchedAgent.Lib.Json

/-!
# `WatchedAgent.Model.Ressource`: series of samples

`Ressource` of `include/collectors.h` keeps the last samples of a metric, the newest first.
A sample is a JSON object with a member `timestamp`, so it is kept as the list of its
members. Time is counted in whole units of the clock, and the double the source stores
holds it exactly.

`getHistory` is the common case of the two readers of the source: every time is an integer,
and there are not too many samples for the index of their loops. `getHistoryJson` and
`getHistoryText` are the two readers as they stand.

`Collector` holds its ressources by name. Its thread makes a sample by a `nextValue` and
then `setProperty` calls, with `Collector::lock` taken around the pass (`Call`).
-/

set_option autoImplicit false

namespace WatchedAgent.Model

open WatchedAgent.Lib (Json)

/-- A sample by its members. -/
abbrev Sample := List (String × Json)

namespace Sample

/-- `s["timestamp"]`, where it is there and a number of the clock. -/
def timestamp (s : Sample) : Option Int :=
  match s.lookup "timestamp" with
  | some (.int t) => some t
  | _ => none

/-- `s.isMember("timestamp") && s["timestamp"].asDouble() >= since`. -/
def isSince (since : Int) (s : Sample) : Bool :=
  match s.timestamp with
  | some t => since ≤ t
  | none => false

end Sample

/-- `class Ressource`. The maps `d` and `t` hold the descriptions and types of the
properties. -/
structure Ressource where
  typeName : String
  size : Nat
  d : List (String × String) := []
  t : List (String × String) := []
  v : List Sample := []

namespace Ressource

/-- `Ressource::nextValue`, at the time `now`. -/
def nextValue (now : Int) (r : Ressource) : Ressource :=
  -- The new sample is a copy of the newest one with another time.
  { r with v := (Json.insert "timestamp" (.int now) (r.v.headD []) :: r.v).take r.size }

/-- `Ressource::setProperty`. Without a sample it is undefined in the source. -/
def setProperty (name : String) (val : Json) (r : Ressource) : Ressource :=
  match r.v with
  | [] => r
  | s :: v => { r with v := Json.insert name val s :: v }

/-- `Ressource::getHistory`: the samples from `since` on, the oldest first. -/
def getHistory (since : Int) (r : Ressource) : List Sample :=
  r.v.reverse.filter (Sample.isSince since)

/-- `asDouble()` of a JSON value. `none` is the exception for a text, an array and an object. -/
def asDouble : Json → Option ℚ
  | .null => some 0
  | .bool b => some (if b then 1 else 0)
  | .int n => some n
  | .real digits => some ((Lib.Text.stod digits).getD 0)
  | .str _ => none
  | .arr _ => none
  | .obj _ => none

/-- The test of the two readers on a sample. -/
def isReported (since : ℚ) (s : Sample) : Option Bool :=
  match s.lookup "timestamp" with
  | none => some false
  | some t => (asDouble t).map (fun t => decide (since ≤ t))

/-- The samples the loops of the two readers visit, the oldest first. The index starts at
`v.size()-1` as an `int`, which is negative from `2 ^ 31` on. -/
def visited (r : Ressource) : List Sample := if r.v.length ≤ 0x80000000 then r.v.reverse else []

/-- `Ressource::getHistory(out, since)`: the samples it appends. -/
def getHistoryJson (since : ℚ) (r : Ressource) : Option (List Sample) :=
  r.visited.foldlM (fun out s =>
    (isReported since s).map (fun b => if b then out ++ [s] else out)) []

/-- `Ressource::getHistory(since)`, with the text `render` that `operator<<` writes for a
sample. -/
def getHistoryText (render : Sample → String) (since : ℚ) (r : Ressource) : Option String := do
  let (ss, _) ← r.visited.foldlM (fun (c : String × Bool) s =>
    (isReported since s).map (fun b =>
      let (ss, splitted) := c
      if b then ((if splitted then ss else ss ++ ",\n") ++ render s, false) else (ss, splitted)))
    ("[\n", true)
  return ss ++ "\n]\n"

end Ressource

/-- The ressources of a `Collector` by name, and whether its thread holds the lock. -/
structure Collector where
  ressources : List (String × Ressource)
  locked : Bool := false

/-- A call a collecting pass makes. -/
inductive Call where
  | nextValue (res : String) (now : Int)
  | setProperty (res name : String) (val : Json)

namespace Collector

/-- The ressource with that name is replaced by what `f` makes of it. -/
def modify (res : String) (f : Ressource → Ressource) (ressources : List (String × Ressource)) :
    List (String × Ressource) :=
  ressources.map (fun e => if e.1 = res then (e.1, f e.2) else e)

/-- A call of `collect()`. Only the thread makes one, in a pass. -/
def call (c : Collector) : Call → Collector
  | .nextValue res now => { c with ressources := modify res (Ressource.nextValue now) c.ressources }
  | .setProperty res name val =>
      { c with ressources := modify res (Ressource.setProperty name val) c.ressources }

/-- What one turn of `Collector::getJsonHistory` reads: the samples of one ressource. -/
def getJsonHistory (c : Collector) (res : String) (since : Int) : List Sample :=
  match c.ressources.lookup res with
  | none => []
  | some r => r.getHistory since

/-- `Collector::doGetHistory`: `none` while the lock is held. The ressource is looked up
before the lock is taken. -/
def doGetHistory (c : Collector) (res : String) (since : Int) :
    Option (Except String (List Sample)) :=
  match c.ressources.lookup res with
  | none => some (.error "No such Metric")
  | some r => if c.locked then none else some (.ok (r.getHistory since))

theorem lookup_modify (res : String) (f : Ressource → Ressource)
    (ressources : List (String × Ressource)) (name : String) :
    (modify res f ressources).lookup name
      = if name = res then (ressources.lookup name).map f else ressources.lookup name := by
  induction ressources with
  | nil => simp [modify]
  | cons e es ih =>
      obtain ⟨k, r⟩ := e
      show ((if k = res then (k, f r) else (k, r)) :: modify res f es).lookup name = _
      by_cases hk : name = k
      · subst hk
        by_cases hres : name = res
        · rw [if_pos hres, if_pos hres, List.lookup_cons_self, List.lookup_cons_self]
          rfl
        · rw [if_neg hres, if_neg hres, List.lookup_cons_self, List.lookup_cons_self]
      · have hhead : (if k = res then (k, f r) else (k, r))
            = (k, if k = res then f r else r) := by split <;> rfl
        rw [hhead, Json.lookup_cons_of_ne _ _ hk, Json.lookup_cons_of_ne _ _ hk, ih]

end Collector

end WatchedAgent.Model
