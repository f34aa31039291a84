import WatchedAgent.Lib.Json

/-!
# `WatchedAgent.Lib.JsonPath`: values below other values

A path is the keys from a value down. `at?` is what stands at a path, `getAt` reads
`j[k₁]…[kₙ]`, where `null` stands for what is absent, and `setAt` assigns to it, which makes the
objects on the way.

* `at?_setAt_self` and `at?_setAt_of_apart`: what an assignment changes.
* `isSome_at?_setAt`: the values above it stay, and they are objects or `null`
  (`isObjectOrNull_of_setAt`).
* `getAt_of_at?` and `setAt_of_at?`: reading what is there, and assigning it again.
-/

set_option autoImplicit false

namespace WatchedAgent.Lib.Json

/-- The keys from a value down. -/
abbrev Path := List String

/-- The value at a path. -/
def at? : Json → Path → Option Json
  | j, [] => some j
  | j, key :: path => (j.member? key).bind (fun m => m.at? path)

/-- `j[k₁]…[kₙ]` where it is read. -/
def getAt : Json → Path → Option Json
  | j, [] => some j
  | j, key :: path => (j.getD key).bind (fun m => m.getAt path)

/-- `j[k₁]…[kₙ] = value`. -/
def setAt : Json → Path → Json → Option Json
  | _, [], value => some value
  | j, key :: path, value => do j.setMember key (← (← j.getD key).setAt path value)

@[simp]
theorem at?_nil (j : Json) : j.at? [] = some j := by
  cases j <;> rfl

@[simp]
theorem at?_cons (j : Json) (key : String) (path : Path) :
    j.at? (key :: path) = (j.member? key).bind (fun m => m.at? path) := by
  cases j <;> rfl

@[simp]
theorem getAt_nil (j : Json) : j.getAt [] = some j := by
  cases j <;> rfl

@[simp]
theorem getAt_cons (j : Json) (key : String) (path : Path) :
    j.getAt (key :: path) = (j.getD key).bind (fun m => m.getAt path) := by
  cases j <;> rfl

@[simp]
theorem setAt_nil (j value : Json) : j.setAt [] value = some value := by
  cases j <;> rfl

theorem setAt_cons (j : Json) (key : String) (path : Path) (value : Json) :
    j.setAt (key :: path) value
      = (j.getD key).bind (fun m => (m.setAt path value).bind (fun m' => j.setMember key m')) := by
  cases j <;> rfl

theorem at?_append (j : Json) (p q : Path) : j.at? (p ++ q) = (j.at? p).bind (fun m => m.at? q) := by
  induction p generalizing j with
  | nil => simp
  | cons key p ih =>
      cases hm : j.member? key with
      | none => simp [hm]
      | some m => simp [hm, ih]

theorem isSome_at?_of_prefix {j : Json} {p q : Path} (hpq : p <+: q) (h : (j.at? q).isSome = true) :
    (j.at? p).isSome = true := by
  obtain ⟨rest, rfl⟩ := hpq
  rw [at?_append] at h
  exact Option.isSome_of_isSome_bind h

/-- Below a value that is no object there is nothing. -/
theorem isObjectOrNull_of_at? {j x : Json} {key : String} {path : Path}
    (h : j.at? (key :: path) = some x) : j.IsObjectOrNull := by
  rw [at?_cons] at h
  obtain ⟨m, hm, -⟩ := Option.bind_eq_some_iff.mp h
  exact isObjectOrNull_of_member? hm

theorem isObjectOrNull_of_getD {j m : Json} {key : String} (h : j.getD key = some m) :
    j.IsObjectOrNull := by
  cases j with
  | null => trivial
  | obj ms => trivial
  | _ => simp [getD] at h

theorem getD_of_member? {j m : Json} {key : String} (h : j.member? key = some m) :
    j.getD key = some m := by
  rw [getD_eq (isObjectOrNull_of_member? h), h, Option.getD_some]

/-- Reading what is there. -/
theorem getAt_of_at? {j x : Json} {path : Path} (h : j.at? path = some x) :
    j.getAt path = some x := by
  induction path generalizing j with
  | nil => simpa using h
  | cons key path ih =>
      rw [at?_cons] at h
      obtain ⟨m, hm, hx⟩ := Option.bind_eq_some_iff.mp h
      rw [getAt_cons, getD_of_member? hm, Option.bind_some]
      exact ih hx

/-- Where there is nothing, a read that works gives `null`. -/
theorem eq_null_of_getAt {j x : Json} {path : Path} (h : j.getAt path = some x)
    (hnone : j.at? path = none) : x = null := by
  induction path generalizing j with
  | nil => simp at hnone
  | cons key path ih =>
      rw [getAt_cons] at h
      obtain ⟨m, hm, hx⟩ := Option.bind_eq_some_iff.mp h
      rw [getD_eq (isObjectOrNull_of_getD hm)] at hm
      cases hmember : j.member? key with
      | none =>
          -- Below `null` everything reads as `null`.
          have hnull : ∀ path, (null : Json).getAt path = some null := by
            intro path
            induction path with
            | nil => rfl
            | cons key path ih => exact ih
          rw [hmember] at hm
          obtain rfl : null = m := Option.some.inj hm
          exact Option.some.inj (hx.symm.trans (hnull path))
      | some m' =>
          rw [hmember] at hm
          obtain rfl : m' = m := Option.some.inj hm
          rw [at?_cons, hmember] at hnone
          exact ih hx hnone

/-! ### Assignments -/

/-- The first key of an assignment. -/
theorem exists_setAt_cons {j j' value : Json} {key : String} {path : Path}
    (h : j.setAt (key :: path) value = some j') : ∃ m m', j.getD key = some m ∧
      m.setAt path value = some m' ∧ j.setMember key m' = some j' := by
  rw [setAt_cons] at h
  obtain ⟨m, hm, h⟩ := Option.bind_eq_some_iff.mp h
  obtain ⟨m', hm', h⟩ := Option.bind_eq_some_iff.mp h
  exact ⟨m, m', hm, hm', h⟩

theorem at?_setAt_self {j j' value : Json} {path : Path} (h : j.setAt path value = some j') :
    j'.at? path = some value := by
  induction path generalizing j j' with
  | nil =>
      obtain rfl : value = j' := by simpa using h
      simp
  | cons key path ih =>
      obtain ⟨m, m', -, hset, hj⟩ := exists_setAt_cons h
      rw [at?_cons, member?_setMember_self hj, Option.bind_some]
      exact ih hset

/-- The paths that lead neither to it nor through it. -/
theorem at?_setAt_of_apart {j j' value : Json} {path q : Path} (h : j.setAt path value = some j')
    (hpq : ¬ path <+: q) (hqp : ¬ q <+: path) : j'.at? q = j.at? q := by
  induction path generalizing j j' q with
  | nil => exact absurd (List.nil_prefix) hpq
  | cons key path ih =>
      obtain ⟨m, m', hm, hset, hj⟩ := exists_setAt_cons h
      cases q with
      | nil => exact absurd (List.nil_prefix) hqp
      | cons key' q =>
          rw [at?_cons, at?_cons]
          by_cases hkey : key' = key
          · subst hkey
            have hpq' : ¬ path <+: q := fun hp => hpq ((List.prefix_cons_inj key').mpr hp)
            have hqp' : ¬ q <+: path := fun hp => hqp ((List.prefix_cons_inj key').mpr hp)
            have hrest := ih hset hpq' hqp'
            rw [member?_setMember_self hj, Option.bind_some, hrest]
            rw [getD_eq (isObjectOrNull_of_getD hm)] at hm
            cases hmember : j.member? key' with
            | none =>
                -- The path ends above, or there is nothing.
                rw [hmember] at hm
                obtain rfl : null = m := Option.some.inj hm
                cases q with
                | nil => exact absurd (List.nil_prefix) hqp'
                | cons key q => rfl
            | some m₁ =>
                rw [hmember] at hm
                obtain rfl : m₁ = m := Option.some.inj hm
                rfl
          · rw [member?_setMember_of_ne hj hkey]

/-- The values above it stay. -/
theorem isSome_at?_setAt {j j' value : Json} {path q : Path} (h : j.setAt path value = some j')
    (hq : q <+: path) : (j'.at? q).isSome = true :=
  isSome_at?_of_prefix hq (by rw [at?_setAt_self h]; rfl)

/-- They are objects, or `null`. -/
theorem isObjectOrNull_of_setAt {j j' value x : Json} {path q : Path}
    (h : j.setAt path value = some j') (hq : q <+: path) (hne : q ≠ path)
    (hx : j.at? q = some x) : x.IsObjectOrNull := by
  induction path generalizing j j' q with
  | nil => exact absurd (List.prefix_nil.mp hq) hne
  | cons key path ih =>
      obtain ⟨m, m', hm, hset, -⟩ := exists_setAt_cons h
      cases q with
      | nil =>
          obtain rfl : j = x := by simpa using hx
          exact isObjectOrNull_of_getD hm
      | cons key' q =>
          obtain ⟨rfl, hq'⟩ := List.cons_prefix_cons.mp hq
          rw [at?_cons] at hx
          obtain ⟨m₁, hm₁, hx⟩ := Option.bind_eq_some_iff.mp hx
          rw [getD_of_member? hm₁] at hm
          obtain rfl : m₁ = m := Option.some.inj hm
          exact ih hset hq' (fun heq => hne (heq ▸ rfl)) hx

/-- Assigning what is there. -/
theorem setAt_of_at? {j value : Json} {path : Path} (h : j.at? path = some value) :
    j.setAt path value = some j := by
  induction path generalizing j with
  | nil =>
      obtain rfl : j = value := by simpa using h
      simp
  | cons key path ih =>
      rw [at?_cons] at h
      obtain ⟨m, hm, hx⟩ := Option.bind_eq_some_iff.mp h
      rw [setAt_cons, getD_of_member? hm, Option.bind_some, ih hx, Option.bind_some]
      exact setMember_of_member? hm

end WatchedAgent.Lib.Json
