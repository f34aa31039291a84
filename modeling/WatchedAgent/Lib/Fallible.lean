import Mathlib.Data.List.Basic

/-!
# `WatchedAgent.Lib.Fallible`: lists and a function that may fail

`mapM` and `foldlM` in `Option` stop at the first failure.

* `mapM_of_forall`, `mapM_of_mem` and `exists_of_mem_mapM`: when a map succeeds, and where its
  elements come from.
* `isSome_mapM` and `isSome_foldlM`: exactly when a map succeeds, and a fold whose steps fail for
  the element alone.
* `foldlM_of_forall`, `foldlM_of_filterMap` and `foldlM_fixed`: folds whose steps all succeed.
* `foldlM_cons_some` and `foldlM_append_some`: a fold after its first steps.
* `foldlM_keeps`, `exists_foldlM` and `exists_step`: invariants and steps of a fold.
* `foldlM_of_mem`: what one step establishes and no other loses.
-/

set_option autoImplicit false

namespace WatchedAgent.Lib.Fallible

variable {α β σ : Type}

/-- A list where every element succeeds. -/
theorem mapM_of_forall {f : α → Option β} {g : α → β} (l : List α)
    (h : ∀ a ∈ l, f a = some (g a)) : l.mapM f = some (l.map g) := by
  induction l with
  | nil => rfl
  | cons a l ih =>
      have htail := ih fun x hx => h x (List.mem_cons_of_mem a hx)
      rw [List.mapM_cons, h a List.mem_cons_self, htail]
      rfl

/-- A list where one element fails. -/
theorem mapM_of_mem {f : α → Option β} {l : List α} {a : α} (ha : a ∈ l)
    (h : f a = none) : l.mapM f = none := by
  induction l with
  | nil => exact absurd ha List.not_mem_nil
  | cons b l ih =>
      rw [List.mapM_cons]
      rcases List.mem_cons.mp ha with rfl | ha
      · rw [h]
        rfl
      · rw [ih ha]
        cases f b <;> rfl

/-- A map succeeds if it does for every element. -/
theorem isSome_mapM {f : α → Option β} {l : List α} :
    (l.mapM f).isSome = true ↔ ∀ a ∈ l, (f a).isSome = true := by
  constructor
  · intro h a ha
    cases hfa : f a with
    | none => exact absurd h (by rw [mapM_of_mem ha hfa]; exact Bool.false_ne_true)
    | some b => rfl
  · intro h
    induction l with
    | nil => rfl
    | cons a l ih =>
        obtain ⟨b, hb⟩ := Option.isSome_iff_exists.mp (h a List.mem_cons_self)
        obtain ⟨bs, hbs⟩ :=
          Option.isSome_iff_exists.mp (ih fun x hx => h x (List.mem_cons_of_mem a hx))
        rw [List.mapM_cons, hb, hbs]
        rfl

/-- A result of the map comes from an element of the list. -/
theorem exists_of_mem_mapM {f : α → Option β} {l : List α} {r : List β} (h : l.mapM f = some r)
    {b : β} (hb : b ∈ r) : ∃ a ∈ l, f a = some b := by
  induction l generalizing r with
  | nil =>
      obtain rfl : [] = r := Option.some.inj h
      exact absurd hb List.not_mem_nil
  | cons a l ih =>
      rw [List.mapM_cons] at h
      obtain ⟨b', hb', h⟩ := Option.bind_eq_some_iff.mp h
      obtain ⟨r', hr', h⟩ := Option.bind_eq_some_iff.mp h
      obtain rfl : b' :: r' = r := Option.some.inj h
      rcases List.mem_cons.mp hb with rfl | hb
      · exact ⟨a, List.mem_cons_self, hb'⟩
      · obtain ⟨a', ha', hfa⟩ := ih hr' hb
        exact ⟨a', List.mem_cons_of_mem a ha', hfa⟩

/-- A fold whose steps all succeed. -/
theorem foldlM_of_forall {f : σ → α → Option σ} {g : σ → α → σ} {l : List α} {s : σ}
    (h : ∀ s, ∀ a ∈ l, f s a = some (g s a)) : l.foldlM f s = some (l.foldl g s) := by
  induction l generalizing s with
  | nil => rfl
  | cons a l ih =>
      rw [List.foldlM_cons, h s a List.mem_cons_self]
      exact ih fun s x hx => h s x (List.mem_cons_of_mem a hx)

/-- A fold whose steps change nothing. -/
theorem foldlM_fixed {f : σ → α → Option σ} {l : List α} {s : σ} (h : ∀ a ∈ l, f s a = some s) :
    l.foldlM f s = some s := by
  induction l with
  | nil => rfl
  | cons a l ih =>
      rw [List.foldlM_cons, h a List.mem_cons_self]
      exact ih fun x hx => h x (List.mem_cons_of_mem a hx)

theorem foldlM_cons_some {f : σ → α → Option σ} {a : α} {l : List α} {s t : σ}
    (h : f s a = some t) : (a :: l).foldlM f s = l.foldlM f t := by
  rw [List.foldlM_cons, h]
  rfl

theorem foldlM_append_some {f : σ → α → Option σ} {l l' : List α} {s t : σ}
    (h : l.foldlM f s = some t) : (l ++ l').foldlM f s = l'.foldlM f t := by
  rw [List.foldlM_append, h]
  rfl

/-- A fold whose steps succeed, and where only some elements count. -/
theorem foldlM_of_filterMap {f : σ → α → Option σ} {g : σ → β → σ} {h : α → Option β} {l : List α}
    {s : σ} (hf : ∀ s, ∀ a ∈ l, f s a = some ((h a).elim s (g s))) :
    l.foldlM f s = some ((l.filterMap h).foldl g s) := by
  induction l generalizing s with
  | nil => rfl
  | cons a l ih =>
      have htail : ∀ s, l.foldlM f s = some ((l.filterMap h).foldl g s) :=
        fun s => ih fun s x hx => hf s x (List.mem_cons_of_mem a hx)
      rw [List.foldlM_cons, hf s a List.mem_cons_self, Option.bind_eq_bind, Option.bind_some, htail]
      cases ha : h a with
      | none => rw [List.filterMap_cons_none ha, Option.elim_none]
      | some b => rw [List.filterMap_cons_some ha, Option.elim_some, List.foldl_cons]

/-- Successful steps keep an invariant to the end of a successful fold. -/
theorem foldlM_keeps {f : σ → α → Option σ} {I : σ → Prop}
    (hkeep : ∀ s b s', I s → f s b = some s' → I s') {l : List α} {s s' : σ} (hs : I s)
    (h : l.foldlM f s = some s') : I s' := by
  induction l generalizing s with
  | nil => exact Option.some.inj h ▸ hs
  | cons b l ih =>
      rw [List.foldlM_cons] at h
      obtain ⟨t, ht, hl⟩ := Option.bind_eq_some_iff.mp h
      exact ih (hkeep s b t hs ht) hl

/-- A successful fold takes a successful step with each element. -/
theorem exists_step {f : σ → α → Option σ} {l : List α} {s t : σ} (h : l.foldlM f s = some t)
    {a : α} (ha : a ∈ l) : ∃ s' t', f s' a = some t' := by
  induction l generalizing s with
  | nil => exact absurd ha List.not_mem_nil
  | cons b l ih =>
      rw [List.foldlM_cons] at h
      obtain ⟨u, hu, hl⟩ := Option.bind_eq_some_iff.mp h
      rcases List.mem_cons.mp ha with rfl | ha
      · exact ⟨s, u, hu⟩
      · exact ih hl ha

/-- A fold whose steps all succeed where an invariant holds, which they keep. -/
theorem exists_foldlM {f : σ → α → Option σ} {I : σ → Prop} {l : List α}
    (h : ∀ s, I s → ∀ a ∈ l, ∃ t, f s a = some t ∧ I t) {s : σ} (hs : I s) :
    ∃ t, l.foldlM f s = some t ∧ I t := by
  induction l generalizing s with
  | nil => exact ⟨s, rfl, hs⟩
  | cons a l ih =>
      obtain ⟨t, hstep, ht⟩ := h s hs a List.mem_cons_self
      rw [foldlM_cons_some hstep]
      exact ih (fun s hs x hx => h s hs x (List.mem_cons_of_mem a hx)) ht

/-- A fold whose steps fail or succeed for the element alone. -/
theorem isSome_foldlM {f : σ → α → Option σ} {p : α → Prop}
    (h : ∀ s a, (f s a).isSome = true ↔ p a) {l : List α} {s : σ} :
    (l.foldlM f s).isSome = true ↔ ∀ a ∈ l, p a := by
  induction l generalizing s with
  | nil => exact iff_of_true rfl fun a ha => absurd ha List.not_mem_nil
  | cons a l ih =>
      rw [List.foldlM_cons, List.forall_mem_cons, ← h s a]
      cases f s a with
      | none => exact iff_of_false Bool.false_ne_true fun hall => Bool.false_ne_true hall.1
      | some t => exact (ih (s := t)).trans (and_iff_right rfl).symm

/-- What a step establishes and the steps keep holds after a fold that takes the step. -/
theorem foldlM_of_mem {f : σ → α → Option σ} {I : σ → Prop} {a : α}
    (hset : ∀ s s', f s a = some s' → I s')
    (hkeep : ∀ s b s', I s → f s b = some s' → I s') {l : List α} (ha : a ∈ l) {s s' : σ}
    (h : l.foldlM f s = some s') : I s' := by
  induction l generalizing s with
  | nil => exact absurd ha List.not_mem_nil
  | cons b l ih =>
      rw [List.foldlM_cons] at h
      obtain ⟨t, ht, hl⟩ := Option.bind_eq_some_iff.mp h
      rcases List.mem_cons.mp ha with rfl | ha
      · exact foldlM_keeps hkeep (hset s t ht) hl
      · exact ih ha hl

end WatchedAgent.Lib.Fallible
