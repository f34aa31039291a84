import Mathlib.Data.List.Nodup

/-!
# `WatchedAgent.Lib.FirstMatch`: updating the first element that matches

Code that walks a vector of shared objects, changes the first one that passes a test, and
stops. `modifyFirst p f` is that walk. The lemmas say which elements are new, which are
kept, and what a projection that `f` preserves sees.

Two sections are about keys: how often a key occurs in the lists of all elements after one
was updated, and when the keys of the elements stay distinct. The last compares the walk
with the walk over an image of the list: only what the tests say of the elements the walk
reaches has to agree.
-/

set_option autoImplicit false

namespace WatchedAgent.Lib

variable {α β : Type*}

/-- Apply `f` to the first element that satisfies `p`. -/
def modifyFirst (p : α → Bool) (f : α → α) : List α → List α
  | [] => []
  | a :: as => if p a then f a :: as else a :: modifyFirst p f as

section
variable (p : α → Bool) (f : α → α)

@[simp]
theorem modifyFirst_nil : modifyFirst p f [] = [] := rfl

@[simp]
theorem length_modifyFirst (l : List α) : (modifyFirst p f l).length = l.length := by
  induction l with
  | nil => rfl
  | cons a as ih =>
      unfold modifyFirst
      split
      · rfl
      · rw [List.length_cons, List.length_cons, ih]

/-- With no match, nothing changes. -/
theorem modifyFirst_of_not_any (l : List α) (h : l.any p = false) :
    modifyFirst p f l = l := by
  induction l with
  | nil => rfl
  | cons a as ih =>
      simp only [List.any_cons, Bool.or_eq_false_iff] at h
      unfold modifyFirst
      rw [if_neg (by simp [h.1]), ih h.2]

/-- With a match, the list splits at the first one. -/
theorem modifyFirst_split (l : List α) (h : l.any p = true) :
    ∃ pre a post, l = pre ++ a :: post ∧ p a = true ∧ (∀ b ∈ pre, p b = false) ∧
      modifyFirst p f l = pre ++ f a :: post := by
  induction l with
  | nil => simp at h
  | cons a as ih =>
      cases ha : p a with
      | true => exact ⟨[], a, as, rfl, ha, by simp, by simp [modifyFirst, ha]⟩
      | false =>
          have has : as.any p = true := by simpa [ha] using h
          obtain ⟨pre, b, post, rfl, hb, hpre, hmod⟩ := ih has
          refine ⟨a :: pre, b, post, rfl, hb, ?_, ?_⟩
          · intro c hc
            rcases List.mem_cons.mp hc with rfl | hc
            · exact ha
            · exact hpre c hc
          · rw [show modifyFirst p f (a :: (pre ++ b :: post))
                = a :: modifyFirst p f (pre ++ b :: post) from by simp [modifyFirst, ha],
              hmod, List.cons_append]

/-- The update is one at the index of the first match. -/
theorem modifyFirst_eq_modify (l : List α) {k : Nat} (h : l.findIdx? p = some k) :
    modifyFirst p f l = l.modify k f := by
  induction l generalizing k with
  | nil => simp at h
  | cons a as ih =>
      rw [List.findIdx?_cons] at h
      unfold modifyFirst
      cases ha : p a with
      | true =>
          rw [ha, if_pos rfl, Option.some.injEq] at h
          subst h
          rw [if_pos rfl, List.modify_zero_cons]
      | false =>
          rw [ha, if_neg (by simp), Option.map_eq_some_iff] at h
          obtain ⟨j, hj, rfl⟩ := h
          rw [if_neg (by simp), ih hj, List.modify_succ_cons]

/-- A search finds no place exactly when nothing matches. -/
theorem findIdx?_eq_none_iff_any (l : List α) : l.findIdx? p = none ↔ l.any p = false := by
  rw [List.findIdx?_eq_none_iff, List.any_eq_false]
  simp only [Bool.not_eq_true]

/-- The first match of `p` is updated, else the first match of `q`, else an element is added:
one search says which place is updated. -/
theorem modifyFirst_else_append (q : α → Bool) (l : List α) (x : α) :
    (if l.any p then modifyFirst p f l else if l.any q then modifyFirst q f l else l ++ [x])
      = match (l.findIdx? p).or (l.findIdx? q) with
        | some k => l.modify k f
        | none => l ++ [x] := by
  rw [← List.findIdx?_isSome, ← List.findIdx?_isSome]
  cases hp : l.findIdx? p with
  | some k =>
      rw [if_pos Option.isSome_some, Option.some_or]
      exact modifyFirst_eq_modify p f l hp
  | none =>
      rw [if_neg (by simp), Option.none_or]
      cases hq : l.findIdx? q with
      | some k =>
          rw [if_pos Option.isSome_some]
          exact modifyFirst_eq_modify q f l hq
      | none => rw [if_neg (by simp)]

/-- An element after an update at an index is an old one, or the image of the one there. -/
theorem mem_modify {l : List α} {k : Nat} {b : α} (h : b ∈ l.modify k f) :
    b ∈ l ∨ ∃ a, l[k]? = some a ∧ b = f a := by
  obtain ⟨j, hj⟩ := List.mem_iff_getElem?.mp h
  rw [List.getElem?_modify] at hj
  split at hj
  · rename_i hkj
    subst hkj
    obtain ⟨a, ha, rfl⟩ := Option.map_eq_some_iff.mp hj
    exact .inr ⟨a, ha, rfl⟩
  · exact .inl (List.mem_of_getElem? (by simpa using hj))

/-- What stands at an index after the update. -/
theorem getElem?_modifyFirst (l : List α) (k : Nat) : (modifyFirst p f l)[k]?
    = if l.findIdx? p = some k then l[k]?.map f else l[k]? := by
  cases hfind : l.findIdx? p with
  | none =>
      rw [modifyFirst_of_not_any p f l ((findIdx?_eq_none_iff_any p l).mp hfind), if_neg (by simp)]
  | some j =>
      rw [modifyFirst_eq_modify p f l hfind, List.getElem?_modify]
      by_cases hj : j = k
      · simp [hj]
      · simp [hj]

/-- An element after the update is an old one or the image of the match. -/
theorem mem_modifyFirst {l : List α} {b : α} (h : b ∈ modifyFirst p f l) :
    b ∈ l ∨ ∃ a ∈ l, p a = true ∧ b = f a := by
  induction l with
  | nil => simp at h
  | cons a as ih =>
      unfold modifyFirst at h
      split at h
      · rename_i ha
        rcases List.mem_cons.mp h with rfl | h
        · exact .inr ⟨a, by simp, ha, rfl⟩
        · exact .inl (by simp [h])
      · rcases List.mem_cons.mp h with rfl | h
        · exact .inl (by simp)
        · rcases ih h with h | ⟨c, hc, hpc, rfl⟩
          · exact .inl (by simp [h])
          · exact .inr ⟨c, by simp [hc], hpc, rfl⟩

/-- A test that fails on the matches and on their images does not see the update. -/
theorem filter_modifyFirst (r : α → Bool) (l : List α)
    (h : ∀ a ∈ l, p a = true → r a = false ∧ r (f a) = false) :
    (modifyFirst p f l).filter r = l.filter r := by
  induction l with
  | nil => rfl
  | cons a as ih =>
      have htail := ih (fun b hb => h b (List.mem_cons_of_mem a hb))
      unfold modifyFirst
      split
      · rename_i ha
        obtain ⟨hr, hr'⟩ := h a List.mem_cons_self ha
        rw [List.filter_cons, List.filter_cons, hr, hr']
        rfl
      · rw [List.filter_cons, List.filter_cons, htail]

/-- To erase the first element that passes two tests is to erase the first that passes one
among those that pass the other. -/
theorem filter_eraseP_and (q r : α → Bool) (l : List α) :
    (l.eraseP (fun a => r a && q a)).filter r = (l.filter r).eraseP q := by
  induction l with
  | nil => rfl
  | cons a as ih =>
      cases hr : r a with
      | false =>
          rw [List.eraseP_cons_of_neg (by simp [hr]), List.filter_cons_of_neg (by simp [hr]),
            List.filter_cons_of_neg (by simp [hr]), ih]
      | true =>
          rw [List.filter_cons_of_pos hr]
          cases hq : q a with
          | true => rw [List.eraseP_cons_of_pos (by simp [hr, hq]), List.eraseP_cons_of_pos hq]
          | false =>
              rw [List.eraseP_cons_of_neg (by simp [hq]), List.eraseP_cons_of_neg (by simp [hq]),
                List.filter_cons_of_pos hr, ih]

/-- An old element is kept, or it is the match and its image is there. -/
theorem mem_or_mem_modifyFirst {l : List α} {a : α} (h : a ∈ l) :
    a ∈ modifyFirst p f l ∨ (p a = true ∧ f a ∈ modifyFirst p f l) := by
  induction l with
  | nil => simp at h
  | cons b bs ih =>
      unfold modifyFirst
      split
      · rename_i hb
        rcases List.mem_cons.mp h with rfl | h
        · exact .inr ⟨hb, by simp⟩
        · exact .inl (by simp [h])
      · rcases List.mem_cons.mp h with rfl | h
        · exact .inl (by simp)
        · rcases ih h with h | ⟨hpa, h⟩
          · exact .inl (by simp [h])
          · exact .inr ⟨hpa, by simp [h]⟩

/-- A property that `f` preserves on matches holds for some element afterwards if it did
before. -/
theorem exists_mem_modifyFirst {q : α → Prop} {l : List α}
    (hf : ∀ a ∈ l, p a = true → q a → q (f a)) (h : ∃ a ∈ l, q a) :
    ∃ a ∈ modifyFirst p f l, q a := by
  obtain ⟨a, ha, hq⟩ := h
  rcases mem_or_mem_modifyFirst p f ha with hmem | ⟨hp, hmem⟩
  · exact ⟨a, hmem, hq⟩
  · exact ⟨f a, hmem, hf a ha hp hq⟩

/-- The match itself is updated: with a match, some element is the image of one. -/
theorem exists_mem_modifyFirst_of_any {l : List α} (h : l.any p = true) :
    ∃ a ∈ l, p a = true ∧ f a ∈ modifyFirst p f l := by
  obtain ⟨pre, a, post, rfl, ha, -, hmod⟩ := modifyFirst_split p f l h
  exact ⟨a, by simp, ha, by rw [hmod]; simp⟩

/-- A property that `f` preserves on matches holds for some element afterwards exactly if
it did before, or the image of the first match has it. -/
theorem exists_mem_modifyFirst_iff {q : α → Prop} (l : List α)
    (hf : ∀ a ∈ l, p a = true → q a → q (f a)) :
    (∃ b ∈ modifyFirst p f l, q b)
      ↔ (∃ a ∈ l, q a) ∨ ∃ a, l.find? p = some a ∧ q (f a) := by
  induction l with
  | nil => simp
  | cons b bs ih =>
      have htail : ∀ a ∈ bs, p a = true → q a → q (f a) :=
        fun a ha => hf a (List.mem_cons_of_mem b ha)
      unfold modifyFirst
      cases hb : p b with
      | true =>
          -- The head is the match. Its image takes over what the head had.
          have hhead := hf b List.mem_cons_self hb
          rw [if_pos rfl, List.find?_cons_of_pos hb]
          simp only [List.mem_cons, exists_eq_or_imp, Option.some.injEq, exists_eq_left']
          constructor
          · intro h
            rcases h with h | h
            · exact .inr h
            · exact .inl (.inr h)
          · intro h
            rcases h with (h | h) | h
            · exact .inl (hhead h)
            · exact .inr h
            · exact .inl h
      | false =>
          rw [if_neg (by simp), List.find?_cons_of_neg (by simp [hb])]
          simp only [List.mem_cons, exists_eq_or_imp]
          rw [ih htail, or_assoc]

/-- A projection that `f` preserves does not see the update. -/
theorem map_modifyFirst_of_eq (g : α → β) (l : List α) (h : ∀ a ∈ l, p a = true → g (f a) = g a) :
    (modifyFirst p f l).map g = l.map g := by
  induction l with
  | nil => rfl
  | cons a as ih =>
      unfold modifyFirst
      split
      · rename_i ha
        rw [List.map_cons, List.map_cons, h a (by simp) ha]
      · rw [List.map_cons, List.map_cons, ih (fun b hb => h b (by simp [hb]))]

end

/-! ### Counting the keys of all elements -/

section Count
variable [BEq β] (g : α → List β) (n : β)

/-- An update of one element adds no more occurrences of a key than it adds to the list of
that element. -/
theorem count_flatMap_modify_le (f : α → α) (l : List α) (k d : Nat)
    (h : ∀ a, l[k]? = some a → (g (f a)).count n ≤ (g a).count n + d) :
    ((l.modify k f).flatMap g).count n ≤ (l.flatMap g).count n + d := by
  induction l generalizing k with
  | nil => simp
  | cons a as ih =>
      cases k with
      | zero =>
          have ha := h a rfl
          rw [List.modify_zero_cons, List.flatMap_cons, List.flatMap_cons, List.count_append,
            List.count_append]
          omega
      | succ k =>
          have has := ih k (fun b hb => h b hb)
          rw [List.modify_succ_cons, List.flatMap_cons, List.flatMap_cons, List.count_append,
            List.count_append]
          omega

/-- The same for an update of the first match. -/
theorem count_flatMap_modifyFirst_le (p : α → Bool) (f : α → α) (l : List α) (d : Nat)
    (h : ∀ a ∈ l, (g (f a)).count n ≤ (g a).count n + d) :
    ((modifyFirst p f l).flatMap g).count n ≤ (l.flatMap g).count n + d := by
  cases hfind : l.findIdx? p with
  | none =>
      rw [modifyFirst_of_not_any p f l ((findIdx?_eq_none_iff_any p l).mp hfind)]
      omega
  | some k =>
      rw [modifyFirst_eq_modify p f l hfind]
      exact count_flatMap_modify_le g n f l k d (fun a ha => h a (List.mem_of_getElem? ha))

/-- Two elements at different places contribute separately. -/
theorem count_add_count_le_flatMap {l : List α} {j k : Nat} {a b : α} (hj : l[j]? = some a)
    (hk : l[k]? = some b) (hne : j ≠ k) :
    (g a).count n + (g b).count n ≤ (l.flatMap g).count n := by
  -- One element alone contributes its own count.
  have one : ∀ {l : List α} {k : Nat} {b : α}, l[k]? = some b →
      (g b).count n ≤ (l.flatMap g).count n := by
    intro l k b hk
    obtain ⟨pre, post, rfl⟩ := List.append_of_mem (List.mem_of_getElem? hk)
    rw [List.flatMap_append, List.flatMap_cons, List.count_append, List.count_append]
    omega
  induction l generalizing j k with
  | nil => simp at hj
  | cons c cs ih =>
      rw [List.flatMap_cons, List.count_append]
      cases j with
      | zero =>
          cases k with
          | zero => exact absurd rfl hne
          | succ k =>
              obtain rfl : c = a := by simpa using hj
              have hb := one (l := cs) (k := k) (b := b) (by simpa using hk)
              omega
      | succ j =>
          cases k with
          | zero =>
              obtain rfl : c = b := by simpa using hk
              have ha := one (l := cs) (k := j) (b := a) (by simpa using hj)
              omega
          | succ k =>
              have hrest := ih (j := j) (k := k) (by simpa using hj) (by simpa using hk)
                (fun h => hne (by rw [h]))
              omega

end Count

/-- An update that keeps the lists keeps what they make together. -/
theorem flatMap_modify_of_eq (g : α → List β) (f : α → α) (l : List α) (k : Nat)
    (h : ∀ a, g (f a) = g a) : (l.modify k f).flatMap g = l.flatMap g := by
  induction l generalizing k with
  | nil => simp
  | cons a l ih =>
      cases k with
      | zero => rw [List.modify_zero_cons, List.flatMap_cons, List.flatMap_cons, h]
      | succ k => rw [List.modify_succ_cons, List.flatMap_cons, List.flatMap_cons, ih]

/-! ### Distinct keys -/

/-- After an update of the element at `k`, distinct keys are distinct again exactly when
the new key is none of the others. -/
theorem nodup_map_modify_iff (g : α → β) (f : α → α) {l : List α} {k : Nat} {a : α}
    (hk : l[k]? = some a) (h : (l.map g).Nodup) :
    ((l.modify k f).map g).Nodup ↔ g (f a) ∉ (l.eraseIdx k).map g := by
  obtain ⟨hlt, ha⟩ := List.getElem?_eq_some_iff.mp hk
  -- Take the element out: the keys of the rest are distinct anyway.
  have hsplit : l = l.take k ++ a :: l.drop (k + 1) := by
    rw [← ha, ← List.drop_eq_getElem_cons hlt, List.take_append_drop]
  have hrest : ((l.take k ++ l.drop (k + 1)).map g).Nodup := by
    rw [hsplit, List.map_append, List.map_cons, List.nodup_middle] at h
    rw [List.map_append]
    exact h.of_cons
  rw [List.modify_eq_take_cons_drop hlt, ha, List.eraseIdx_eq_take_drop_succ, List.map_append,
    List.map_cons, List.nodup_middle, List.nodup_cons, ← List.map_append]
  exact and_iff_left hrest

/-! ### The walk over an image -/

section Searched
variable {p : α → Bool} {l : List α}

variable (p) in
/-- A search for `p` looks at the element: none before it satisfies `p`. -/
def Searched (l : List α) (a : α) : Prop :=
  ∃ pre post, l = pre ++ a :: post ∧ ∀ b ∈ pre, p b = false

theorem searched_head (a : α) (l : List α) : Searched p (a :: l) a := ⟨[], l, rfl, by simp⟩

theorem Searched.cons {a b : α} (h : Searched p l b) (ha : p a = false) :
    Searched p (a :: l) b := by
  obtain ⟨pre, post, rfl, hpre⟩ := h
  exact ⟨a :: pre, post, rfl, List.forall_mem_cons.mpr ⟨ha, hpre⟩⟩

variable {q : β → Bool} (g : α → β)

/-- The search finds something in the image exactly when it does in the list. -/
theorem any_map_of_searched (hp : ∀ a, Searched p l a → q (g a) = p a) :
    (l.map g).any q = l.any p := by
  induction l with
  | nil => rfl
  | cons a l ih =>
      have ha := hp a (searched_head a l)
      rw [List.map_cons, List.any_cons, List.any_cons, ha]
      cases hcase : p a with
      | true => rfl
      | false => rw [Bool.false_or, Bool.false_or, ih fun b hb => hp b (hb.cons hcase)]

/-- The walk over the image is the image of the walk. -/
theorem modifyFirst_map {f : α → α} {f' : β → β} (hp : ∀ a, Searched p l a → q (g a) = p a)
    (hf : ∀ a, f' (g a) = g (f a)) :
    modifyFirst q f' (l.map g) = (modifyFirst p f l).map g := by
  induction l with
  | nil => rfl
  | cons a l ih =>
      have ha := hp a (searched_head a l)
      unfold modifyFirst
      rw [List.map_cons]
      dsimp only
      rw [ha]
      cases hcase : p a with
      | true => simp [hf]
      | false =>
          rw [if_neg (by simp), if_neg (by simp), List.map_cons,
            ih fun b hb => hp b (hb.cons hcase)]

end Searched

end WatchedAgent.Lib
