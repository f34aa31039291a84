import Mathlib.Order.Lattice

/-!
# `WatchedAgent.Lib.OrderedMap`: a map that is walked in the order of its keys

A map as the list of its entries, in ascending order of the keys. `insert` writes an entry,
and `Sorted` is what it keeps. A search that walks the map takes the least key that matches
(`findSome?_of_least`).
-/

set_option autoImplicit false

namespace WatchedAgent.Lib.OrderedMap

variable {κ ν β : Type} [LinearOrder κ]

/-- `map[k] = v`. -/
def insert (k : κ) (v : ν) : List (κ × ν) → List (κ × ν)
  | [] => [(k, v)]
  | e :: l =>
      if k < e.1 then (k, v) :: e :: l
      else if k = e.1 then (k, v) :: l
      else e :: insert k v l

/-- The keys ascend. -/
def Sorted (l : List (κ × ν)) : Prop := l.Pairwise (fun a b => a.1 < b.1)

theorem sorted_nil : Sorted ([] : List (κ × ν)) := List.Pairwise.nil

/-- The entry written is there. -/
theorem self_mem_insert (k : κ) (v : ν) (l : List (κ × ν)) : (k, v) ∈ insert k v l := by
  induction l with
  | nil => exact List.mem_cons_self
  | cons e l ih =>
      unfold insert
      split
      · exact List.mem_cons_self
      · split
        · exact List.mem_cons_self
        · exact List.mem_cons_of_mem _ ih

/-- The entries under other keys stay. -/
theorem mem_insert_of_ne {k : κ} (v : ν) {l : List (κ × ν)} {a : κ × ν} (h : a ∈ l)
    (hne : a.1 ≠ k) : a ∈ insert k v l := by
  induction l with
  | nil => exact absurd h List.not_mem_nil
  | cons e l ih =>
      unfold insert
      split
      · exact List.mem_cons_of_mem _ h
      · split
        · rename_i heq
          rcases List.mem_cons.mp h with rfl | h
          · exact absurd heq.symm hne
          · exact List.mem_cons_of_mem _ h
        · rcases List.mem_cons.mp h with rfl | h
          · exact List.mem_cons_self
          · exact List.mem_cons_of_mem _ (ih h)

/-- An entry afterwards is the one written or an old one. -/
theorem eq_or_mem_of_mem_insert {k : κ} {v : ν} {l : List (κ × ν)} {a : κ × ν}
    (h : a ∈ insert k v l) : a = (k, v) ∨ a ∈ l := by
  induction l with
  | nil => exact .inl (List.mem_singleton.mp h)
  | cons e l ih =>
      unfold insert at h
      split at h
      · exact List.mem_cons.mp h
      · split at h
        · exact (List.mem_cons.mp h).imp_right (List.mem_cons_of_mem _)
        · rcases List.mem_cons.mp h with rfl | h
          · exact .inr List.mem_cons_self
          · exact (ih h).imp_right (List.mem_cons_of_mem _)

/-- A key has an entry afterwards if it was written, or had one. -/
theorem exists_mem_insert_iff {k k' : κ} (v : ν) (l : List (κ × ν)) :
    (∃ v', (k', v') ∈ insert k v l) ↔ (∃ v', (k', v') ∈ l) ∨ k' = k := by
  constructor
  · rintro ⟨v', h⟩
    rcases eq_or_mem_of_mem_insert h with heq | hmem
    · exact .inr (Prod.mk.inj heq).1
    · exact .inl ⟨v', hmem⟩
  · rintro (⟨v', hmem⟩ | rfl)
    · by_cases hkey : k' = k
      · subst hkey
        exact ⟨v, self_mem_insert k' v l⟩
      · exact ⟨v', mem_insert_of_ne v hmem hkey⟩
    · exact ⟨v, self_mem_insert k' v l⟩

theorem sorted_insert (k : κ) (v : ν) {l : List (κ × ν)} (h : Sorted l) :
    Sorted (insert k v l) := by
  induction l with
  | nil => exact List.pairwise_singleton _ _
  | cons e l ih =>
      have hrest := List.pairwise_cons.mp h
      unfold insert
      split
      · rename_i hlt
        refine List.pairwise_cons.mpr ⟨fun a ha => ?_, h⟩
        rcases List.mem_cons.mp ha with rfl | ha
        · exact hlt
        · exact hlt.trans (hrest.1 a ha)
      · split
        · rename_i heq
          exact List.pairwise_cons.mpr ⟨fun a ha => heq ▸ hrest.1 a ha, hrest.2⟩
        · rename_i hlt hne
          refine List.pairwise_cons.mpr ⟨fun a ha => ?_, ih hrest.2⟩
          rcases eq_or_mem_of_mem_insert ha with rfl | ha
          · exact lt_of_le_of_ne (not_lt.mp hlt) (Ne.symm hne)
          · exact hrest.1 a ha

/-- A look-up of the key of an entry finds the entry. -/
theorem lookup_of_mem [BEq κ] [LawfulBEq κ] {l : List (κ × ν)} (h : Sorted l) {k : κ} {v : ν}
    (ha : (k, v) ∈ l) : l.lookup k = some v := by
  induction l with
  | nil => exact absurd ha List.not_mem_nil
  | cons e l ih =>
      have hrest := List.pairwise_cons.mp h
      rcases List.mem_cons.mp ha with heq | hal
      · rw [← heq]
        exact List.lookup_cons_self
      · have hne : (k == e.1) = false := beq_eq_false_iff_ne.mpr (hrest.1 (k, v) hal).ne'
        show (match k == e.1 with
          | true => some e.2
          | false => l.lookup k) = some v
        rw [hne]
        exact ih hrest.2 hal

omit [LinearOrder κ] in
theorem lookup_cons_eq [DecidableEq κ] (e : κ × ν) (l : List (κ × ν)) (k : κ) :
    (e :: l).lookup k = if k = e.1 then some e.2 else l.lookup k := by
  obtain ⟨key, value⟩ := e
  by_cases h : k = key
  · subst h
    rw [if_pos rfl, List.lookup_cons_self]
  · rw [if_neg h, List.lookup_cons, beq_false_of_ne h]

/-- A look-up after a write finds what was written, and under the other keys what was there. -/
theorem lookup_insert (k : κ) (v : ν) (l : List (κ × ν)) (k' : κ) :
    (insert k v l).lookup k' = if k' = k then some v else l.lookup k' := by
  induction l with
  | nil => exact lookup_cons_eq (k, v) [] k'
  | cons e l ih =>
      unfold insert
      split
      · exact lookup_cons_eq (k, v) (e :: l) k'
      · split
        · rename_i heq
          rw [lookup_cons_eq, lookup_cons_eq, heq]
          split <;> rfl
        · rename_i hne
          rw [lookup_cons_eq, lookup_cons_eq, ih]
          by_cases hk : k' = e.1
          · rw [if_pos hk, if_pos hk, if_neg (fun h => hne (h.symm.trans hk))]
          · rw [if_neg hk, if_neg hk]

omit [LinearOrder κ] in
/-- A key that is not found has no entry. -/
theorem ne_of_lookup_none [BEq κ] [LawfulBEq κ] {l : List (κ × ν)} {k : κ}
    (h : l.lookup k = none) {a : κ × ν} (ha : a ∈ l) : a.1 ≠ k := by
  intro hkey
  have hnone := List.lookup_eq_none_iff.mp h a ha
  rw [hkey] at hnone
  exact absurd hnone (by simp)

/-- The walk stops at the least key that matches. -/
theorem findSome?_of_least {f : κ × ν → Option β} {l : List (κ × ν)} (h : Sorted l)
    {a : κ × ν} (ha : a ∈ l) {r : β} (hr : f a = some r)
    (hleast : ∀ b ∈ l, (f b).isSome = true → a.1 ≤ b.1) : l.findSome? f = some r := by
  induction l with
  | nil => exact absurd ha List.not_mem_nil
  | cons e l ih =>
      have hrest := List.pairwise_cons.mp h
      rw [List.findSome?_cons]
      rcases List.mem_cons.mp ha with rfl | ha
      · rw [hr]
      · -- An earlier match would have a smaller key.
        have hnone : f e = none := by
          by_contra hne
          have hle := hleast e List.mem_cons_self (Option.isSome_iff_ne_none.mpr hne)
          exact absurd (hrest.1 a ha) (not_lt.mpr hle)
        rw [hnone]
        exact ih hrest.2 ha fun b hb hm => hleast b (List.mem_cons_of_mem _ hb) hm

end WatchedAgent.Lib.OrderedMap
