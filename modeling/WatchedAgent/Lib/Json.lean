import Mathlib.Data.List.Basic

/-!
# `WatchedAgent.Lib.Json`: JSON values that change in place

A JSON value and the three operations a program uses on one in place: the test for a
member, the access by key and the assignment to a member. As with a C++ value class, `null`
stands for an object without members, and the operations throw (`none`) on any other value
that is not an object.

The members of an object are kept in a list, and the first one with a key counts. An
assignment replaces it where it stands. So a member set to the value it has leaves the list
as it is (`setMember_of_member?`), and the lemmas about `member?` say all that the values
depend on:

* `member?_setMember_self` and `member?_setMember_of_ne`: what an assignment changes.
* `isMember_eq` and `getD_eq`: the test and the access read `member?`.
-/

set_option autoImplicit false

namespace WatchedAgent.Lib

/-- A JSON value. A number that is not an integer is kept as its text. -/
inductive Json where
  | null
  | bool (b : Bool)
  | int (n : Int)
  | real (digits : String)
  | str (s : String)
  | arr (elems : List Json)
  | obj (members : List (String × Json))

namespace Json

/-- The members of a list with the value of `key` replaced, or added at the end. -/
def insert (key : String) (value : Json) : List (String × Json) → List (String × Json)
  | [] => [(key, value)]
  | (k, v) :: ms => if k = key then (key, value) :: ms else (k, v) :: insert key value ms

/-- The operations do not throw: the value is an object, or the `null` that becomes one. -/
def IsObjectOrNull : Json → Prop
  | null => True
  | obj _ => True
  | _ => False

/-- The value of a member. -/
def member? : Json → String → Option Json
  | obj ms, key => ms.lookup key
  | _, _ => none

/-- `j.isMember(key)`. -/
def isMember : Json → String → Option Bool
  | null, _ => some false
  | obj ms, key => some (ms.lookup key).isSome
  | _, _ => none

/-- `j[key]` where it is read: `null` for an absent member. -/
def getD : Json → String → Option Json
  | null, _ => some null
  | obj ms, key => some ((ms.lookup key).getD null)
  | _, _ => none

/-- `j[key] = value`. -/
def setMember : Json → String → Json → Option Json
  | null, key, value => some (obj [(key, value)])
  | obj ms, key, value => some (obj (insert key value ms))
  | _, _, _ => none

/-! ### Members of a list -/

theorem lookup_cons_of_ne {β : Type*} {key k : String} (v : β) (ms : List (String × β))
    (hne : key ≠ k) : ((k, v) :: ms).lookup key = ms.lookup key := by
  have hbeq : (key == k) = false := by simpa using hne
  rw [List.lookup_cons, hbeq]

theorem lookup_insert_self (key : String) (value : Json) (ms : List (String × Json)) :
    (insert key value ms).lookup key = some value := by
  induction ms with
  | nil => exact List.lookup_cons_self
  | cons m ms ih =>
      unfold insert
      split
      · exact List.lookup_cons_self
      · rename_i hne
        rw [lookup_cons_of_ne _ _ (Ne.symm hne), ih]

theorem lookup_insert_of_ne {key other : String} (value : Json) (ms : List (String × Json))
    (hne : other ≠ key) : (insert key value ms).lookup other = ms.lookup other := by
  induction ms with
  | nil => exact lookup_cons_of_ne value [] hne
  | cons m ms ih =>
      obtain ⟨k, v⟩ := m
      unfold insert
      split
      · rename_i heq
        -- The replaced member has the key, so neither list finds `other` there.
        rw [lookup_cons_of_ne _ _ hne, lookup_cons_of_ne _ _ (heq ▸ hne)]
      · rw [List.lookup_cons, List.lookup_cons, ih]

/-- A member set to the value it has. -/
theorem insert_of_lookup {key : String} {value : Json} {ms : List (String × Json)}
    (h : ms.lookup key = some value) : insert key value ms = ms := by
  induction ms with
  | nil => simp at h
  | cons m ms ih =>
      obtain ⟨k, v⟩ := m
      unfold insert
      split
      · rename_i heq
        subst heq
        have hv : v = value := by simpa using h
        rw [hv]
      · rename_i hne
        rw [lookup_cons_of_ne _ _ (Ne.symm hne)] at h
        rw [ih h]

/-! ### Objects -/

theorem isMember_eq {j : Json} (h : j.IsObjectOrNull) (key : String) :
    j.isMember key = some (j.member? key).isSome := by
  cases j <;> first | rfl | exact h.elim

theorem getD_eq {j : Json} (h : j.IsObjectOrNull) (key : String) :
    j.getD key = some ((j.member? key).getD null) := by
  cases j <;> first | rfl | exact h.elim

theorem isObjectOrNull_of_member? {j value : Json} {key : String} (h : j.member? key = some value) :
    j.IsObjectOrNull := by
  cases j with
  | null => trivial
  | obj ms => trivial
  | _ => simp [member?] at h

/-- An assignment to an object gives an object. -/
theorem exists_setMember {j : Json} (h : j.IsObjectOrNull) (key : String) (value : Json) :
    ∃ ms, j.setMember key value = some (obj ms) := by
  cases j with
  | null => exact ⟨_, rfl⟩
  | obj ms => exact ⟨_, rfl⟩
  | _ => exact h.elim

theorem member?_setMember_self {j j' value : Json} {key : String}
    (h : j.setMember key value = some j') : j'.member? key = some value := by
  cases j with
  | null =>
      obtain rfl : obj [(key, value)] = j' := by simpa [setMember] using h
      exact List.lookup_cons_self
  | obj ms =>
      obtain rfl : obj (insert key value ms) = j' := by simpa [setMember] using h
      exact lookup_insert_self key value ms
  | _ => simp [setMember] at h

theorem member?_setMember_of_ne {j j' value : Json} {key other : String}
    (h : j.setMember key value = some j') (hne : other ≠ key) :
    j'.member? other = j.member? other := by
  cases j with
  | null =>
      obtain rfl : obj [(key, value)] = j' := by simpa [setMember] using h
      exact lookup_cons_of_ne value [] hne
  | obj ms =>
      obtain rfl : obj (insert key value ms) = j' := by simpa [setMember] using h
      exact lookup_insert_of_ne value ms hne
  | _ => simp [setMember] at h

theorem setMember_of_member? {j value : Json} {key : String}
    (h : j.member? key = some value) : j.setMember key value = some j := by
  cases j with
  | obj ms =>
      show some (obj (insert key value ms)) = some (obj ms)
      rw [insert_of_lookup h]
  | _ => simp [member?] at h

end Json

end WatchedAgent.Lib
