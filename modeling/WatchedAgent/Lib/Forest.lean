import Mathlib.Data.List.Nodup
import Mathlib.Data.Set.Finite.List
import Mathlib.Logic.Relation
import Mathlib.Order.WellFounded

/-!
# `WatchedAgent.Lib.Forest`: roots kept while the nodes of a forest arrive

The nodes of a forest arrive one by one, each with its parent, and a list of roots is kept.
A node whose parent is in the list is left out. Any other node joins the list, and its
children leave it (`insert`). A node that was left out is never looked at again, neither as
a parent nor as a child.

* `apart_insert`: no node of the list is the parent of another one.
* `mem_insertAll_iff`: the list holds the nodes whose parent did not arrive if and only if
  each node arrives after its children and grandchildren, wherever it has both.
-/

set_option autoImplicit false

namespace WatchedAgent.Lib.Forest

variable {κ : Type} [DecidableEq κ] (parent : κ → κ)

/-- The roots after the arrival of a node. -/
def insert (roots : List κ) (k : κ) : List κ :=
  if parent k ∈ roots then roots else roots.filter (fun r => parent r ≠ k) ++ [k]

/-- The roots after the arrival of some nodes. -/
def insertAll (ks : List κ) : List κ := ks.foldl (insert parent) []

/-- No node of the list is the parent of another one. -/
def Apart (roots : List κ) : Prop := ∀ a ∈ roots, ∀ b ∈ roots, b ≠ a → parent a ≠ b

/-- No node is its own ancestor among the nodes of the list. -/
def Acyclic (ks : List κ) : Prop :=
  ∀ k ∈ ks, ¬ Relation.TransGen (fun c p => p ∈ ks ∧ parent c = p) k k

/-- A node that arrives with its child and its grandchild arrives after both. -/
def GrandparentsLast (ks : List κ) : Prop :=
  ∀ k ∈ ks, parent k ∈ ks → parent (parent k) ∈ ks →
    ks.idxOf k < ks.idxOf (parent (parent k)) ∧
      ks.idxOf (parent k) < ks.idxOf (parent (parent k))

instance (ks : List κ) : Decidable (GrandparentsLast parent ks) :=
  inferInstanceAs (Decidable (∀ k ∈ ks, _ → _ → _ ∧ _))

variable {parent}

omit [DecidableEq κ] in
/-- A measure that falls from child to parent rules out cycles. -/
theorem acyclic_of_lt {ks : List κ} (depth : κ → Nat)
    (h : ∀ k ∈ ks, parent k ∈ ks → depth (parent k) < depth k) : Acyclic parent ks := by
  have hfalls : ∀ {a b : κ}, a ∈ ks →
      Relation.TransGen (fun c p => p ∈ ks ∧ parent c = p) a b → depth b < depth a ∧ b ∈ ks := by
    intro a b ha hab
    induction hab with
    | single hstep =>
        obtain ⟨hmem, rfl⟩ := hstep
        exact ⟨h _ ha hmem, hmem⟩
    | tail _ hstep ih =>
        obtain ⟨hmem, rfl⟩ := hstep
        exact ⟨lt_trans (h _ ih.2 hmem) ih.1, hmem⟩
  intro k hk hcycle
  exact lt_irrefl _ (hfalls hk hcycle).1

omit [DecidableEq κ] in
/-- A node is not its own parent. -/
theorem Acyclic.parent_ne {ks : List κ} (h : Acyclic parent ks) {k : κ} (hk : k ∈ ks) :
    parent k ≠ k := fun heq => h k hk (.single ⟨hk, heq⟩)

/-- An induction from the parents to the children. -/
theorem Acyclic.induction {ks : List κ} (h : Acyclic parent ks) {P : κ → Prop}
    (hP : ∀ k ∈ ks, (parent k ∈ ks → P (parent k)) → P k) : ∀ k ∈ ks, P k := by
  -- On the finitely many nodes, "is an ancestor of" is a strict order.
  let r : ks.toFinset → ks.toFinset → Prop := fun a b =>
    Relation.TransGen (fun c p => p ∈ ks ∧ parent c = p) b.1 a.1
  have hirrefl : Std.Irrefl r := ⟨fun a => h a.1 (List.mem_toFinset.mp a.2)⟩
  have htrans : IsTrans _ r := ⟨fun _ _ _ hab hbc => hbc.trans hab⟩
  have hwf : WellFounded r := Finite.wellFounded_of_trans_of_irrefl r
  have key : ∀ a : ks.toFinset, P a.1 := by
    intro a
    induction a using hwf.induction with
    | h a ih =>
        refine hP a.1 (List.mem_toFinset.mp a.2) fun hmem => ?_
        exact ih ⟨parent a.1, List.mem_toFinset.mpr hmem⟩ (.single ⟨hmem, rfl⟩)
  exact fun k hk => key ⟨k, List.mem_toFinset.mpr hk⟩

/-! ### One arrival -/

section Insert
variable {roots : List κ} {k : κ}

theorem mem_insert {a : κ} : a ∈ insert parent roots k ↔
    (parent k ∈ roots ∧ a ∈ roots) ∨
      (parent k ∉ roots ∧ ((a ∈ roots ∧ parent a ≠ k) ∨ a = k)) := by
  unfold insert
  by_cases hk : parent k ∈ roots
  · rw [if_pos hk]
    simp only [hk, true_and, not_true, false_and, or_false]
  · rw [if_neg hk, List.mem_append, List.mem_filter, List.mem_singleton, decide_eq_true_iff]
    simp only [hk, false_and, not_false_eq_true, true_and, false_or]

/-- An arrival keeps the roots apart. -/
theorem apart_insert (h : Apart parent roots) : Apart parent (insert parent roots k) := by
  intro a ha b hb hne
  rcases mem_insert.mp ha with ⟨hk, ha⟩ | ⟨hk, ha⟩
  · rcases mem_insert.mp hb with ⟨-, hb⟩ | ⟨hk', -⟩
    · exact h a ha b hb hne
    · exact absurd hk hk'
  · rcases mem_insert.mp hb with ⟨hk', -⟩ | ⟨-, hb⟩
    · exact absurd hk' hk
    · rcases ha with ⟨ha, hchild⟩ | rfl
      · rcases hb with ⟨hb, -⟩ | rfl
        · exact h a ha b hb hne
        · exact hchild
      · rcases hb with ⟨hb, -⟩ | rfl
        · exact fun heq => hk (heq ▸ hb)
        · exact absurd rfl hne

end Insert

/-! ### Many arrivals -/

theorem insertAll_append (ks : List κ) (k : κ) :
    insertAll parent (ks ++ [k]) = insert parent (insertAll parent ks) k := by
  simp [insertAll]

/-- Only nodes that arrived are roots. -/
theorem mem_of_mem_insertAll {ks : List κ} {a : κ} (h : a ∈ insertAll parent ks) : a ∈ ks := by
  induction ks using List.reverseRecOn with
  | nil => exact absurd h List.not_mem_nil
  | append_singleton ks k ih =>
      rw [insertAll_append] at h
      rw [List.mem_append, List.mem_singleton]
      rcases mem_insert.mp h with ⟨-, h⟩ | ⟨-, ⟨h, -⟩ | rfl⟩
      · exact .inl (ih h)
      · exact .inl (ih h)
      · exact .inr rfl

theorem apart_insertAll (ks : List κ) : Apart parent (insertAll parent ks) := by
  induction ks using List.reverseRecOn with
  | nil => exact fun a ha => absurd ha List.not_mem_nil
  | append_singleton ks k ih =>
      rw [insertAll_append]
      exact apart_insert ih

/-- A node is a root as long as its parent has not arrived. -/
theorem mem_insertAll_of_absent {ks : List κ} {a : κ} (ha : a ∈ ks) (hparent : parent a ∉ ks) :
    a ∈ insertAll parent ks := by
  induction ks using List.reverseRecOn with
  | nil => exact absurd ha List.not_mem_nil
  | append_singleton ks k ih =>
      rw [List.mem_append, List.mem_singleton, not_or] at hparent
      rw [insertAll_append, mem_insert]
      by_cases hk : parent k ∈ insertAll parent ks
      · rcases List.mem_append.mp ha with ha | ha
        · exact .inl ⟨hk, ih ha hparent.1⟩
        · obtain rfl := List.mem_singleton.mp ha
          exact absurd (mem_of_mem_insertAll hk) hparent.1
      · rcases List.mem_append.mp ha with ha | ha
        · exact .inr ⟨hk, .inl ⟨ih ha hparent.1, hparent.2⟩⟩
        · exact .inr ⟨hk, .inr (List.mem_singleton.mp ha)⟩

/-- A root whose parent has arrived remains one. -/
theorem mem_insertAll_append {ks ls : List κ} {a : κ} (hnodup : (ks ++ ls).Nodup)
    (ha : a ∈ insertAll parent ks) (hparent : parent a ∈ ks) :
    a ∈ insertAll parent (ks ++ ls) := by
  induction ls using List.reverseRecOn with
  | nil => rwa [List.append_nil]
  | append_singleton ls k ih =>
      rw [← List.append_assoc] at hnodup ⊢
      obtain ⟨hnodup, -, hk⟩ := List.nodup_append.mp hnodup
      have hne : parent a ≠ k :=
        hk _ (List.mem_append_left ls hparent) k (List.mem_singleton_self k)
      rw [insertAll_append, mem_insert]
      by_cases hroot : parent k ∈ insertAll parent (ks ++ ls)
      · exact .inl ⟨hroot, ih hnodup⟩
      · exact .inr ⟨hroot, .inl ⟨ih hnodup, hne⟩⟩

/-- A node that is no root does not become one. -/
theorem not_mem_insertAll_append {ks ls : List κ} {a : κ} (hnodup : (ks ++ ls).Nodup)
    (ha : a ∈ ks) (hroot : a ∉ insertAll parent ks) : a ∉ insertAll parent (ks ++ ls) := by
  induction ls using List.reverseRecOn with
  | nil => rwa [List.append_nil]
  | append_singleton ls k ih =>
      rw [← List.append_assoc] at hnodup ⊢
      obtain ⟨hnodup, -, hk⟩ := List.nodup_append.mp hnodup
      have hne : a ≠ k := hk _ (List.mem_append_left ls ha) k (List.mem_singleton_self k)
      rw [insertAll_append, mem_insert]
      rintro (⟨-, h⟩ | ⟨-, ⟨h, -⟩ | h⟩)
      · exact ih hnodup h
      · exact ih hnodup h
      · exact hne h

/-! ### All arrivals -/

section Arrivals
variable {ks : List κ}

/-- The nodes before a node are those with a smaller index. -/
theorem mem_iff_idxOf_lt {pre post : List κ} {a b : κ} (hnodup : (pre ++ b :: post).Nodup) :
    a ∈ pre ↔ (pre ++ b :: post).idxOf a < (pre ++ b :: post).idxOf b := by
  have hb : b ∉ pre := fun hmem =>
    (List.nodup_append.mp hnodup).2.2 b hmem b List.mem_cons_self rfl
  have hidx : (pre ++ b :: post).idxOf b = pre.length := by
    rw [List.idxOf_append_of_notMem hb, List.idxOf_cons_self, Nat.add_zero]
  rw [hidx]
  constructor
  · intro ha
    rw [List.idxOf_append_of_mem ha]
    exact List.idxOf_lt_length_of_mem ha
  · intro hlt
    by_contra ha
    rw [List.idxOf_append_of_notMem ha] at hlt
    omega

/-- The condition on the arrivals, at an arrival: neither a child nor a grandchild of the node
that arrives comes later. -/
theorem grandparentsLast_iff_split (hnodup : ks.Nodup) : GrandparentsLast parent ks ↔
    ∀ pre a post, ks = pre ++ a :: post → ∀ k ∈ ks, parent k ∈ ks → parent (parent k) = a →
      k ∈ pre ∧ parent k ∈ pre := by
  constructor
  · rintro h pre a post rfl k hk hp rfl
    have hlast := h k hk hp (by simp)
    rw [← mem_iff_idxOf_lt hnodup, ← mem_iff_idxOf_lt hnodup] at hlast
    exact hlast
  · intro h k hk hp hgp
    obtain ⟨pre, post, heq⟩ := List.append_of_mem hgp
    have hsplit := h pre _ post heq k hk hp rfl
    rw [heq] at hnodup
    rw [mem_iff_idxOf_lt hnodup, mem_iff_idxOf_lt hnodup, ← heq] at hsplit
    exact hsplit

/-- Where grandparents arrive last, the roots are exact after every arrival. -/
theorem mem_insertAll_of_grandparentsLast (hnodup : ks.Nodup) (hself : ∀ k ∈ ks, parent k ≠ k)
    (h : GrandparentsLast parent ks) (a : κ) :
    a ∈ insertAll parent ks ↔ a ∈ ks ∧ parent a ∉ ks := by
  rw [grandparentsLast_iff_split hnodup] at h
  induction ks using List.reverseRecOn generalizing a with
  | nil => simp [insertAll]
  | append_singleton ks k ih =>
      obtain ⟨hnodup', -, hk⟩ := List.nodup_append.mp hnodup
      have hnot : k ∉ ks := fun hmem => hk k hmem k (List.mem_singleton_self k) rfl
      have hself' : ∀ a ∈ ks, parent a ≠ a := fun a ha => hself a (List.mem_append_left _ ha)
      -- The arrivals before `k` satisfy the condition too.
      have ih := ih hnodup' hself' fun pre b post heq c hc hp hgp =>
        h pre b (post ++ [k]) (by rw [heq]; simp) c (List.mem_append_left _ hc)
          (List.mem_append_left _ hp) hgp
      have hkself := hself k (List.mem_append_right ks (List.mem_singleton_self k))
      rw [insertAll_append, mem_insert, List.mem_append, List.mem_append, List.mem_singleton,
        List.mem_singleton, not_or]
      simp only [ih]
      by_cases hp : parent k ∈ ks
      · -- The parent is there, so its own parent is not: it would have arrived too early.
        have hgp : parent (parent k) ∉ ks := by
          intro hmem
          obtain ⟨pre, post, heq⟩ := List.append_of_mem hmem
          have hearly := h pre _ (post ++ [k]) (by rw [heq]; simp) k (by simp) (by simp [hp]) rfl
          exact hnot (heq ▸ List.mem_append_left _ hearly.1)
        obtain ⟨pre, post, heq⟩ := List.append_of_mem hp
        -- And no child of `k` is there.
        have hchild : ∀ c ∈ ks, parent c ≠ k := by
          rintro c hc rfl
          have hearly := h pre _ (post ++ [parent c]) (by rw [heq]; simp) c (by simp [hc])
            (by simp) rfl
          exact hnot (heq ▸ List.mem_append_left _ hearly.2)
        constructor
        · rintro (⟨-, ha, hpa⟩ | ⟨hno, -⟩)
          · exact ⟨.inl ha, hpa, hchild a ha⟩
          · exact absurd ⟨hp, hgp⟩ hno
        · rintro ⟨ha | rfl, hpa, -⟩
          · exact .inl ⟨⟨hp, hgp⟩, ha, hpa⟩
          · exact absurd hp hpa
      · constructor
        · rintro (⟨⟨hmem, -⟩, -⟩ | ⟨-, ⟨⟨ha, hpa⟩, hne⟩ | rfl⟩)
          · exact absurd hmem hp
          · exact ⟨.inl ha, hpa, hne⟩
          · exact ⟨.inr rfl, hp, hkself⟩
        · rintro ⟨ha | rfl, hpa, hne⟩
          · exact .inr ⟨fun hmem => hp hmem.1, .inl ⟨⟨ha, hpa⟩, hne⟩⟩
          · exact .inr ⟨fun hmem => hp hmem.1, .inr rfl⟩

/-- A node that arrives after its parent was left out is a root in the end. -/
theorem mem_insertAll_of_left_out {pre post : List κ} {k : κ} (hnodup : (pre ++ post).Nodup)
    (hk : k ∈ post) (hp : parent k ∈ pre) (hout : parent k ∉ insertAll parent pre) :
    k ∈ insertAll parent (pre ++ post) := by
  obtain ⟨mid, rest, rfl⟩ := List.append_of_mem hk
  rw [List.append_cons, ← List.append_assoc] at hnodup ⊢
  have hprefix : (pre ++ mid).Nodup := by
    rw [← List.append_assoc] at hnodup
    exact (List.nodup_append.mp (List.nodup_append.mp hnodup).1).1
  have hout' := not_mem_insertAll_append hprefix hp hout
  rw [← List.append_assoc] at hnodup ⊢
  refine mem_insertAll_append hnodup ?_ (by simp [hp])
  rw [insertAll_append, mem_insert]
  exact .inr ⟨hout', .inr rfl⟩

/-- A root whose parent arrives and is left out is a root in the end. -/
theorem mem_insertAll_of_skipped {pre post : List κ} {k : κ}
    (hnodup : (pre ++ parent k :: post).Nodup) (hk : k ∈ insertAll parent pre)
    (hskip : parent (parent k) ∈ insertAll parent pre) :
    k ∈ insertAll parent (pre ++ parent k :: post) := by
  rw [List.append_cons] at hnodup ⊢
  refine mem_insertAll_append hnodup ?_ (by simp)
  rw [insertAll_append, mem_insert]
  exact .inl ⟨hskip, hk⟩

/-- A node that arrives after its grandparent, or whose parent does, is a root in the end, as
long as nothing above the grandparent has arrived by then. -/
theorem mem_insertAll_of_late (hnodup : ks.Nodup) {k : κ} (hk : k ∈ ks) (hb : parent k ∈ ks)
    (ha : parent (parent k) ∈ ks) (hkb : k ≠ parent k) (hba : parent k ≠ parent (parent k))
    (hka : k ≠ parent (parent k))
    (habove : ∀ pre x post, ks = pre ++ x :: post → x = parent k ∨ x = parent (parent k) →
      parent (parent (parent k)) ∉ pre)
    (hlate : ¬ (ks.idxOf k < ks.idxOf (parent (parent k)) ∧
      ks.idxOf (parent k) < ks.idxOf (parent (parent k)))) :
    k ∈ insertAll parent ks := by
  by_cases hlt : ks.idxOf (parent k) < ks.idxOf (parent (parent k))
  · -- The parent comes first, then the grandparent, which makes it no root, then the node.
    have hnot : ¬ ks.idxOf k < ks.idxOf (parent (parent k)) := fun hlt' => hlate ⟨hlt', hlt⟩
    obtain ⟨pre, post, heq⟩ := List.append_of_mem ha
    have hz : parent (parent (parent k)) ∉ pre := habove pre _ post heq (.inr rfl)
    rw [heq] at hnodup hlt hnot hk ⊢
    rw [← mem_iff_idxOf_lt hnodup] at hlt hnot
    have hpost : k ∈ post := by
      rcases List.mem_append.mp hk with hmem | hmem
      · exact absurd hmem hnot
      · exact (List.mem_cons.mp hmem).resolve_left hka
    have hout : parent k ∉ insertAll parent (pre ++ [parent (parent k)]) := by
      rw [insertAll_append, mem_insert]
      rintro (⟨hroot, -⟩ | ⟨-, ⟨-, hne⟩ | heq⟩)
      · exact hz (mem_of_mem_insertAll hroot)
      · exact hne rfl
      · exact hba heq
    rw [List.append_cons] at hnodup ⊢
    exact mem_insertAll_of_left_out hnodup hpost (List.mem_append_left _ hlt) hout
  · -- The grandparent comes first, so the parent is left out.
    obtain ⟨pre, post, heq⟩ := List.append_of_mem hb
    have hz : parent (parent (parent k)) ∉ pre := habove pre _ post heq (.inl rfl)
    have hidx : ks.idxOf (parent (parent k)) ≠ ks.idxOf (parent k) := fun h =>
      hba ((List.idxOf_inj hb).mp h.symm)
    have hfirst : ks.idxOf (parent (parent k)) < ks.idxOf (parent k) := by omega
    rw [heq] at hnodup hfirst hk ⊢
    rw [← mem_iff_idxOf_lt hnodup] at hfirst
    have hroot := mem_insertAll_of_absent hfirst hz
    have hnot : parent k ∉ pre := fun hmem =>
      (List.nodup_append.mp hnodup).2.2 _ hmem _ List.mem_cons_self rfl
    rcases List.mem_append.mp hk with hmem | hmem
    · exact mem_insertAll_of_skipped hnodup (mem_insertAll_of_absent hmem hnot) hroot
    · have hpost : k ∈ post := (List.mem_cons.mp hmem).resolve_left hkb
      have hout : parent k ∉ insertAll parent (pre ++ [parent k]) := by
        rw [insertAll_append, mem_insert]
        rintro (⟨-, hmem⟩ | ⟨hno, -⟩)
        · exact hnot (mem_of_mem_insertAll hmem)
        · exact hno hroot
      rw [List.append_cons] at hnodup ⊢
      exact mem_insertAll_of_left_out hnodup hpost (by simp) hout

/-- Where no root has its parent among the nodes, grandparents have arrived last. -/
theorem grandparentsLast_of_roots (hnodup : ks.Nodup) (hacyclic : Acyclic parent ks)
    (h : ∀ a ∈ insertAll parent ks, parent a ∉ ks) : GrandparentsLast parent ks := by
  -- From the top of the forest down: what is below a node has arrived before it.
  have key := hacyclic.induction (P := fun a => ∀ k ∈ ks, parent k ∈ ks →
    parent (parent k) = a → ks.idxOf k < ks.idxOf a ∧ ks.idxOf (parent k) < ks.idxOf a)
    fun a ha ih k hk hb hgp => by
      subst hgp
      by_contra hlate
      refine h k (mem_insertAll_of_late hnodup hk hb ha (hacyclic.parent_ne hk).symm
        (hacyclic.parent_ne hb).symm (fun heq => ?_) (fun pre x post heq hx hz => ?_) hlate) hb
      · -- A node is not its own grandparent.
        exact hacyclic k hk (.tail (.single ⟨hb, rfl⟩) ⟨hk, heq.symm⟩)
      · have hmem : parent (parent (parent k)) ∈ ks := heq ▸ List.mem_append_left _ hz
        have hlast := ih hmem (parent k) hb ha rfl
        rw [heq] at hnodup hlast
        rw [mem_iff_idxOf_lt hnodup] at hz
        rcases hx with rfl | rfl
        · exact absurd hz (Nat.lt_asymm hlast.1)
        · exact absurd hz (Nat.lt_asymm hlast.2)
  exact fun k hk hp hgp => key _ hgp k hk hp rfl

/-- The roots are the nodes whose parent did not arrive if and only if grandparents arrive
last. -/
theorem mem_insertAll_iff (hnodup : ks.Nodup) (hacyclic : Acyclic parent ks) :
    (∀ a, a ∈ insertAll parent ks ↔ a ∈ ks ∧ parent a ∉ ks) ↔ GrandparentsLast parent ks := by
  constructor
  · intro h
    exact grandparentsLast_of_roots hnodup hacyclic fun a ha => ((h a).mp ha).2
  · exact fun h => mem_insertAll_of_grandparentsLast hnodup (fun _ => hacyclic.parent_ne) h

end Arrivals

end WatchedAgent.Lib.Forest
