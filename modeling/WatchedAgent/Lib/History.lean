import Mathlib.Data.List.Induction

/-!
# `WatchedAgent.Lib.History`: bounded histories

A history holds the last records of a series, the newest first, up to a bound. A new record
starts as a copy of the newest one (`push`), and is changed in place until the next one is
made.

The abstract series is `series`: all records ever made, the oldest first, each a change of
the one before.

* `take_append_take`: a cut before more records are inserted does not show after the next cut.
* `foldl_turn`: a history is the series, backwards, up to the bound.
-/

set_option autoImplicit false

namespace WatchedAgent.Lib.History

variable {ρ : Type}

/-- What was cut off would have been cut off anyway. -/
theorem take_append_take (l m : List ρ) (n : Nat) : (l ++ m.take n).take n = (l ++ m).take n := by
  rw [List.take_append, List.take_append, List.take_take, Nat.min_eq_left (Nat.sub_le n _)]

/-- A copy of the newest record is changed by `f` and inserted. The first record starts from
`empty`. -/
def push (size : Nat) (empty : ρ) (f : ρ → ρ) (v : List ρ) : List ρ :=
  (f (v.headD empty) :: v).take size

/-- The records that the changes make from `prev` on. -/
def series : ρ → List (ρ → ρ) → List ρ
  | _, [] => []
  | prev, f :: fs => f prev :: series (f prev) fs

theorem length_series (prev : ρ) (fs : List (ρ → ρ)) : (series prev fs).length = fs.length := by
  induction fs generalizing prev with
  | nil => rfl
  | cons f fs ih => rw [series, List.length_cons, List.length_cons, ih]

/-- The record of a change is a change of the record before. -/
theorem series_append (prev : ρ) (fs : List (ρ → ρ)) (f : ρ → ρ) :
    series prev (fs ++ [f]) = series prev fs ++ [f ((series prev fs).getLastD prev)] := by
  induction fs generalizing prev with
  | nil => rfl
  | cons g fs ih =>
      rw [List.cons_append, series, series, ih, List.cons_append, List.getLastD_cons]

/-- The newest record of a history that is a series. -/
theorem headD_take_reverse {size : Nat} (hsize : 0 < size) (empty : ρ) (v : List ρ) :
    (v.reverse.take size).headD empty = v.getLastD empty := by
  obtain ⟨n, rfl⟩ : ∃ n, size = n + 1 := ⟨size - 1, by omega⟩
  induction v using List.reverseRecOn with
  | nil => rfl
  | append_singleton v x _ => simp

/-- The history after each record was inserted and then changed in place. -/
theorem foldl_turn {size : Nat} (hsize : 0 < size) (empty : ρ) (turns : List ((ρ → ρ) × (ρ → ρ))) :
    turns.foldl (fun v t => (push size empty t.1 v).modifyHead t.2) []
      = (series empty (turns.map (fun t => t.2 ∘ t.1))).reverse.take size := by
  obtain ⟨n, hn⟩ : ∃ n, size = n + 1 := ⟨size - 1, by omega⟩
  induction turns using List.reverseRecOn with
  | nil => simp [series]
  | append_singleton turns t ih =>
      rw [List.foldl_append, ih, List.foldl_cons, List.foldl_nil, List.map_append,
        List.map_singleton, series_append, List.reverse_append, List.reverse_singleton,
        List.singleton_append]
      unfold push
      rw [headD_take_reverse hsize, hn, List.take_succ_cons, List.take_succ_cons,
        List.modifyHead_cons, List.take_take, Nat.min_eq_left (Nat.le_succ n)]
      rfl

end WatchedAgent.Lib.History
