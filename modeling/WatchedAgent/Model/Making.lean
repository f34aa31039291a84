import Mathlib.Data.String.Basic
import WatchedAgent.Lib.OrderedMap
import WatchedAgent.Lib.Run

/-!
# `WatchedAgent.Model.Making`: the factories of service collectors and handlers

`handlerFactory` and `serviceCollectorFactory` map a name to the function that makes the object,
and to the file it is made from. `service::addCollector` and `service::setHandler` look the name
up and call the function. They read an entry with `operator[]`, which inserts a null pointer and
an empty text where there is none.

The functions are values of any two types, and the calls made are kept in their order. A call
through a null pointer ends the agent.
-/

set_option autoImplicit false

namespace WatchedAgent.Model

open WatchedAgent.Lib (OrderedMap.insert)

namespace Making

/-- A `std::pair` of a function and a file name, with the values of an inserted one. -/
structure Entry (M : Type) where
  first : Option M := none
  second : String := ""
  deriving DecidableEq

/-- A `std::map` of such pairs. -/
abbrev Table (M : Type) := List (String × Entry M)

namespace Table

variable {M : Type}

/-- `table[key]`: the table afterwards, and the entry. -/
def index (t : Table M) (key : String) : Table M × Entry M :=
  match t.lookup key with
  | some e => (t, e)
  | none => (OrderedMap.insert key {} t, {})

/-- Each name has a function. -/
def Filled (t : Table M) : Prop := ∀ key e, t.lookup key = some e → e.first.isSome = true

theorem filled_of_forall {t : Table M} (h : ∀ e ∈ t, e.2.first.isSome = true) : t.Filled := by
  intro key e hlookup
  obtain ⟨before, after, heq, -⟩ := List.lookup_eq_some_iff.mp hlookup
  have hmem : (key, e) ∈ t := by
    rw [heq]
    exact List.mem_append_right _ List.mem_cons_self
  exact h (key, e) hmem

/-- A name that is there is read without a change. -/
theorem index_of_some {t : Table M} {key : String} {e : Entry M} (h : t.lookup key = some e) :
    t.index key = (t, e) := by
  unfold index
  rw [h]

/-- A name that is missing is there afterwards. -/
theorem lookup_index_of_none {t : Table M} {key : String} (h : t.lookup key = none) :
    (t.index key).1.lookup key = some {} := by
  unfold index
  rw [h]
  exact (Lib.OrderedMap.lookup_insert key {} t key).trans (if_pos rfl)

end Table

/-- A table as it is filled at the start: each name with a function. -/
abbrev Factory (M : Type) := {t : Table M // t.Filled}

/-- A call of a function of a table, with the file it is given. -/
inductive Made (C H : Type) where
  | collector (p_name : String) (maker : Option C) (file : String)
  | handler (p_name : String) (maker : Option H) (file : String)
  deriving DecidableEq

/-- The two tables, the names of the collectors of each service, and the calls made. -/
structure State (C H : Type) where
  handlerFactory : Table H
  serviceCollectorFactory : Table C
  collectors : Nat → List String
  made : List (Made C H) := []
  gone : Bool := false

/-- A call on the service `i`. Where the function throws, `kept` says whether the service has the
name among its collectors all the same. -/
inductive FactoryCall where
  | addCollector (i : Nat) (p_name : String) (kept : Bool)
  | setHandler (i : Nat) (p_name : String)

variable {C H : Type}

/-- `service::addCollector`. -/
def addCollector (s : State C H) (i : Nat) (p_name : String) (kept : Bool) : State C H :=
  if p_name ∈ s.collectors i then s
  else if s.serviceCollectorFactory.lookup p_name = none then s
  else
    let (table, entry) := s.serviceCollectorFactory.index p_name
    let (table, entry') := table.index p_name
    { s with
      serviceCollectorFactory := table
      collectors := fun j =>
        if j = i ∧ kept = true then p_name :: s.collectors i else s.collectors j
      made := s.made ++ [.collector p_name entry.first entry'.second]
      gone := entry.first.isNone }

/-- `service::setHandler`. The file is read from the table of the collectors. -/
def setHandler (s : State C H) (i : Nat) (p_name : String) : State C H :=
  if p_name ∈ s.collectors i then s
  else if s.handlerFactory.lookup p_name = none then s
  else
    let (handlers, entry) := s.handlerFactory.index p_name
    let (collectors, entry') := s.serviceCollectorFactory.index p_name
    { s with
      handlerFactory := handlers
      serviceCollectorFactory := collectors
      made := s.made ++ [.handler p_name entry.first entry'.second]
      gone := entry.first.isNone }

/-- One call. -/
def step (s : State C H) (c : FactoryCall) : State C H :=
  if s.gone then s
  else
    match c with
    | .addCollector i p_name kept => addCollector s i p_name kept
    | .setHandler i p_name => setHandler s i p_name

/-- The state before the first call. -/
def start (handlers : Factory H) (collectorMakers : Factory C) (collectors : Nat → List String) :
    State C H where
  handlerFactory := handlers.val
  serviceCollectorFactory := collectorMakers.val
  collectors := collectors

end Making

end WatchedAgent.Model
