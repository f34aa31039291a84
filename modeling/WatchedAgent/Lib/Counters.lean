import Mathlib.Algebra.BigOperators.Group.List.Basic
import Mathlib.Algebra.GroupWithZero.Nat
import Mathlib.Data.List.Induction
import Mathlib.Logic.Function.Basic

/-!
# `WatchedAgent.Lib.Counters`: tables of the last readings

A loop over some keys writes the reading of each into a table, and adds what the counter of
the key has grown since the reading before.

* `foldl_readings`: for distinct keys, every reading is compared with the table as it was
  before the loop.
* `foldl_bounded`, `foldl_mod` and `foldl_exact`: what a loop that adds adds up to, where a sum
  has to stay small to be exact, where it is taken modulo a number, and where it is always exact.
* `lastReading_append`: the last readings after one more.
-/

set_option autoImplicit false

namespace WatchedAgent.Lib.Counters

variable {κ α β : Type} [DecidableEq κ]

/-- A table with new readings. -/
def written (t : κ → Option α) (keys : List κ) (v : κ → α) : κ → Option α :=
  fun k => if k ∈ keys then some (v k) else t k

/-- The growth of a counter. One that was not read before has not grown. -/
def growth [Zero α] [Sub α] (old : Option α) (v : α) : α :=
  match old with
  | some o => v - o
  | none => 0

theorem foldl_readings (v : κ → α) (add : Option α → α → β → β) {keys : List κ}
    (hkeys : keys.Nodup) (t : κ → Option α) (r : β) :
    keys.foldl (fun s k => (Function.update s.1 k (some (v k)), add (s.1 k) (v k) s.2)) (t, r)
      = (written t keys v, keys.foldl (fun r k => add (t k) (v k) r) r) := by
  induction keys generalizing t r with
  | nil =>
      have htable : written t [] v = t := funext fun q => if_neg List.not_mem_nil
      rw [htable, List.foldl_nil, List.foldl_nil]
  | cons k keys ih =>
      obtain ⟨hk, hkeys⟩ := List.nodup_cons.mp hkeys
      have htable : written (Function.update t k (some (v k))) keys v
          = written t (k :: keys) v := by
        funext q
        unfold written
        by_cases hq : q = k
        · subst hq
          rw [if_neg hk, if_pos List.mem_cons_self, Function.update_self]
        · rw [Function.update_of_ne hq]
          simp only [List.mem_cons, hq, false_or]
      -- The reading of `k` is not compared with later.
      have hrest : ∀ r, keys.foldl
          (fun r q => add (Function.update t k (some (v k)) q) (v q) r) r
          = keys.foldl (fun r q => add (t q) (v q) r) r := by
        intro r
        refine List.foldl_ext _ _ _ fun r q hq => ?_
        have hne : q ≠ k := fun heq => hk (heq ▸ hq)
        rw [Function.update_of_ne hne]
      rw [List.foldl_cons, ih hkeys, htable, hrest, List.foldl_cons]

/-- The last of the readings of a key. -/
def lastReading (history : List (κ × α)) (k : κ) : Option α := history.reverse.lookup k

theorem lastReading_append (history : List (κ × α)) (k q : κ) (v : α) :
    lastReading (history ++ [(k, v)]) q = if q = k then some v else lastReading history q := by
  unfold lastReading
  rw [List.reverse_append, List.reverse_singleton, List.singleton_append, List.lookup_cons]
  by_cases hq : q = k
  · rw [if_pos hq, beq_iff_eq.mpr hq]
  · rw [if_neg hq, beq_eq_false_iff_ne.mpr hq]

/-- Readings of other keys do not count. -/
theorem lastReading_append_of_not_mem (history : List (κ × α)) {readings : List (κ × α)} {k : κ}
    (h : k ∉ readings.map Prod.fst) :
    lastReading (history ++ readings) k = lastReading history k := by
  induction readings using List.reverseRecOn with
  | nil => rw [List.append_nil]
  | append_singleton readings e ih =>
      rw [List.map_append, List.mem_append, not_or] at h
      have hne : k ≠ e.1 := fun heq => h.2 (by simp [heq])
      rw [← List.append_assoc, lastReading_append, if_neg hne, ih h.1]

/-- A key that was read is in the history. -/
theorem mem_of_lastReading {history : List (κ × α)} {k : κ} {v : α}
    (h : lastReading history k = some v) : (k, v) ∈ history := by
  induction history using List.reverseRecOn with
  | nil => exact absurd h (by simp [lastReading])
  | append_singleton history e ih =>
      rw [lastReading_append] at h
      split at h
      · rename_i hk
        rw [hk, ← Option.some.inj h]
        exact List.mem_append_right _ List.mem_cons_self
      · exact List.mem_append_left _ (ih h)

/-- The last reading of what the values are mapped to. -/
theorem lastReading_map (g : α → β) (history : List (κ × α)) (k : κ) :
    lastReading (history.map fun e => (e.1, g e.2)) k = (lastReading history k).map g := by
  induction history using List.reverseRecOn with
  | nil => rfl
  | append_singleton history e ih =>
      rw [List.map_append, List.map_singleton, lastReading_append, lastReading_append, ih]
      split <;> rfl

/-- All readings of a key, in order. -/
def readingsOf (history : List (κ × α)) (k : κ) : List α :=
  (history.filter (fun e => e.1 = k)).map Prod.snd

theorem readingsOf_append (history readings : List (κ × α)) (k : κ) :
    readingsOf (history ++ readings) k = readingsOf history k ++ readingsOf readings k := by
  unfold readingsOf
  rw [List.filter_append, List.map_append]

theorem readingsOf_singleton (k q : κ) (v : α) :
    readingsOf [(k, v)] q = if q = k then [v] else [] := by
  unfold readingsOf
  by_cases hq : q = k
  · rw [if_pos hq, List.filter_cons_of_pos (by simpa using hq.symm)]
    rfl
  · rw [if_neg hq, List.filter_cons_of_neg (by simpa using Ne.symm hq)]
    rfl

theorem getLast?_readingsOf (history : List (κ × α)) (k : κ) :
    (readingsOf history k).getLast? = lastReading history k := by
  induction history using List.reverseRecOn with
  | nil => rfl
  | append_singleton history e ih =>
      rw [readingsOf_append, readingsOf_singleton, lastReading_append]
      split
      · exact List.getLast?_concat
      · rw [List.append_nil, ih]

omit [DecidableEq κ]

/-- A loop that adds, as long as the sum is small. -/
theorem foldl_bounded {b : Nat} {f : Nat → κ → Nat} {g : κ → Nat} {l : List κ} {r : Nat}
    (hf : ∀ r, ∀ k ∈ l, r + g k < b → f r k = r + g k)
    (h : r + (l.map g).sum < b) : l.foldl f r = r + (l.map g).sum := by
  induction l generalizing r with
  | nil => rfl
  | cons k l ih =>
      rw [List.map_cons, List.sum_cons] at h ⊢
      have hk : f r k = r + g k := hf r k List.mem_cons_self (by omega)
      rw [List.foldl_cons, hk, ih (fun r q hq => hf r q (List.mem_cons_of_mem k hq)) (by omega)]
      omega

/-- A loop that adds modulo `m`. -/
theorem foldl_mod {m : Nat} {f : Nat → κ → Nat} {g : κ → Nat} {l : List κ} {r : Nat}
    (hf : ∀ r k, f r k = (r + g k) % m) (h : r < m) :
    l.foldl f r = (r + (l.map g).sum) % m := by
  induction l generalizing r with
  | nil => exact (Nat.mod_eq_of_lt h).symm
  | cons k l ih =>
      have hlt : f r k < m := hf r k ▸ Nat.mod_lt _ (by omega)
      rw [List.foldl_cons, ih hlt, hf, Nat.mod_add_mod, List.map_cons, List.sum_cons, Nat.add_assoc]

/-- A loop that adds. -/
theorem foldl_exact [AddMonoid α] {f : α → κ → α} {g : κ → α} {l : List κ} {r : α}
    (hf : ∀ r, ∀ k ∈ l, f r k = r + g k) : l.foldl f r = r + (l.map g).sum := by
  induction l generalizing r with
  | nil => simp
  | cons k l ih =>
      rw [List.foldl_cons, hf r k List.mem_cons_self,
        ih fun r q hq => hf r q (List.mem_cons_of_mem k hq), List.map_cons, List.sum_cons,
        add_assoc]

end WatchedAgent.Lib.Counters
