import Mathlib.Data.List.Basic

/-!
# `WatchedAgent.Lib.LuaLazy`: lazy groups between two characters

The Lua patterns `%l(.-)%r`, where the group takes as little as it can. The match is the first
one, so `lazyMatch` goes over the places of `l`, and from each of them over those of `r`.

* `lazyMatch_of_split`: the group is what is between the first `l` and the next `r`.
-/

set_option autoImplicit false

namespace WatchedAgent.Lib.Lua

/-- The text up to the next `r`. -/
def upTo (r : Char) : List Char → Option (List Char)
  | [] => none
  | c :: cs => if c = r then some [] else (upTo r cs).map (c :: ·)

/-- `s:match("%l(.-)%r")`, `none` for `nil`. -/
def lazyMatch (l r : Char) : List Char → Option (List Char)
  | [] => none
  | c :: cs => (if c = l then upTo r cs else none).or (lazyMatch l r cs)

theorem upTo_of_split {r : Char} {a b : List Char} (ha : r ∉ a) : upTo r (a ++ r :: b) = some a := by
  induction a with
  | nil => exact if_pos rfl
  | cons c a ih =>
      rw [List.mem_cons, not_or] at ha
      rw [List.cons_append, upTo, if_neg (Ne.symm ha.1), ih ha.2]
      rfl

/-- The group of the first match. -/
theorem lazyMatch_of_split {l r : Char} {a b c : List Char} (ha : l ∉ a) (hb : r ∉ b) :
    lazyMatch l r (a ++ l :: (b ++ r :: c)) = some b := by
  induction a with
  | nil =>
      rw [List.nil_append, lazyMatch, if_pos rfl, upTo_of_split hb]
      rfl
  | cons x a ih =>
      rw [List.mem_cons, not_or] at ha
      rw [List.cons_append, lazyMatch, if_neg (Ne.symm ha.1), ih ha.2]
      rfl

end WatchedAgent.Lib.Lua
