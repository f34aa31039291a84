import Mathlib.Data.List.Basic

/-!
# `WatchedAgent.Lib.Run`: runs of a step function

A system with a total step function `step : σ → α → σ` and a run given by the list of
the steps it takes. Two predicates read a run:

* `Always step P s as`: `P` holds in every state the run reaches, the start included.
* `Meets step C s as`: every step of the run satisfies `C` in the state before it.

The rules carry an invariant `I` along a run whose steps are all good:

* `always_of_meets`: good steps keep the invariant, so the property holds throughout.
* `always_iff_meets`: where a bad step breaks the property, the runs on which the
  property holds throughout are exactly the runs with good steps only.
* `meets_of_meets` and `meets_iff_meets`: the same for a property of the steps themselves.

Five rules are about the end of a run: `exec_history` for a relation to the steps
taken, `exec_of_mem` for a property that some step establishes and none loses,
`exec_iff_or_exists` for its exact form, `exec_iff_last` for a property that the last
step of a kind decides, and `exec_le_sub_count` for a measure that the steps of a kind
lower.

`meets_iff_forall_split` spells `Meets` with the splits of the run.
-/

set_option autoImplicit false

namespace WatchedAgent.Lib.Run

variable {σ α : Type*} (step : σ → α → σ)

/-- `P` holds in every state the run `as` reaches from `s`. -/
def Always (P : σ → Prop) : σ → List α → Prop
  | s, [] => P s
  | s, a :: as => P s ∧ Always P (step s a) as

/-- Every step of the run `as` from `s` satisfies `C` in the state before it. -/
def Meets (C : σ → α → Prop) : σ → List α → Prop
  | _, [] => True
  | s, a :: as => C s a ∧ Meets C (step s a) as

/-- Whether every step of a run satisfies a decidable condition can be computed. -/
instance decidableMeets (C : σ → α → Prop) [∀ s a, Decidable (C s a)] :
    ∀ (s : σ) (as : List α), Decidable (Meets step C s as)
  | _, [] => inferInstanceAs (Decidable True)
  | s, a :: as =>
      have := decidableMeets C (step s a) as
      inferInstanceAs (Decidable (C s a ∧ Meets step C (step s a) as))

/-- The state the run ends in. -/
def exec (s : σ) (as : List α) : σ := as.foldl step s

@[simp]
theorem exec_nil (s : σ) : exec step s [] = s := rfl

@[simp]
theorem exec_cons (s : σ) (a : α) (as : List α) :
    exec step s (a :: as) = exec step (step s a) as := rfl

theorem exec_append (s : σ) (as bs : List α) :
    exec step s (as ++ bs) = exec step (exec step s as) bs := by
  simp [exec]

/-- A run in two parts. -/
theorem meets_append (C : σ → α → Prop) (s : σ) (as bs : List α) :
    Meets step C s (as ++ bs) ↔ Meets step C s as ∧ Meets step C (exec step s as) bs := by
  induction as generalizing s with
  | nil => exact ⟨fun h => ⟨trivial, h⟩, fun h => h.2⟩
  | cons a as ih =>
      rw [List.cons_append, exec_cons]
      exact (and_congr_right fun _ => ih _).trans (and_assoc (a := C s a)).symm

/-- A run whose steps all satisfy `C`, by the splits of the run. -/
theorem meets_iff_forall_split (C : σ → α → Prop) (s : σ) (as : List α) :
    Meets step C s as ↔ ∀ pre a post, as = pre ++ a :: post → C (exec step s pre) a := by
  induction as generalizing s with
  | nil => simp [Meets]
  | cons b as ih =>
      constructor
      · rintro ⟨hb, hrest⟩ pre a post heq
        cases pre with
        | nil =>
            obtain ⟨rfl, -⟩ : b = a ∧ as = post := by simpa using heq
            exact hb
        | cons c pre =>
            obtain ⟨rfl, htail⟩ : b = c ∧ as = pre ++ a :: post := by simpa using heq
            exact (ih _).mp hrest pre a post htail
      · intro h
        refine ⟨h [] b as rfl, (ih _).mpr fun pre a post heq => ?_⟩
        exact h (b :: pre) a post (by rw [heq, List.cons_append])

section
variable {step} {I P : σ → Prop} {C D : σ → α → Prop}

/-- An invariant that good steps keep, and that gives the property, gives the property in
every state of a run with good steps. -/
theorem always_of_meets (hP : ∀ s, I s → P s)
    (hstep : ∀ s a, I s → C s a → I (step s a)) (s : σ) (as : List α) (hs : I s)
    (h : Meets step C s as) : Always step P s as := by
  induction as generalizing s with
  | nil => exact hP s hs
  | cons a as ih => exact ⟨hP s hs, ih _ (hstep s a hs h.1) h.2⟩

/-- Good steps keep an invariant to the end of the run. -/
theorem exec_of_meets (hstep : ∀ s a, I s → C s a → I (step s a)) (s : σ) (as : List α)
    (hs : I s) (h : Meets step C s as) : I (exec step s as) := by
  induction as generalizing s with
  | nil => exact hs
  | cons a as ih => exact ih _ (hstep s a hs h.1) h.2

/-- Good steps that keep an invariant have what the invariant gives them. -/
theorem meets_of_meets (hD : ∀ s a, I s → C s a → D s a)
    (hstep : ∀ s a, I s → C s a → I (step s a)) (s : σ) (as : List α) (hs : I s)
    (h : Meets step C s as) : Meets step D s as := by
  induction as generalizing s with
  | nil => trivial
  | cons a as ih => exact ⟨hD s a hs h.1, ih _ (hstep s a hs h.1) h.2⟩

/-- The property holds in the first state. -/
theorem Always.head {s : σ} {as : List α} (h : Always step P s as) : P s := by
  cases as with
  | nil => exact h
  | cons a as => exact h.1

/-- Where a bad step from a state of the invariant breaks the property, the property holds
throughout a run if and only if all its steps are good. -/
theorem always_iff_meets (hP : ∀ s, I s → P s)
    (hstep : ∀ s a, I s → C s a → I (step s a))
    (hbad : ∀ s a, I s → ¬ C s a → ¬ P (step s a)) (s : σ) (as : List α) (hs : I s) :
    Always step P s as ↔ Meets step C s as := by
  constructor
  · intro h
    induction as generalizing s with
    | nil => trivial
    | cons a as ih =>
        -- A bad step would show in the state it leads to, which the run contains.
        have hC : C s a := by
          by_contra hn
          exact hbad s a hs hn h.2.head
        exact ⟨hC, ih _ (hstep s a hs hC) h.2⟩
  · exact always_of_meets hP hstep s as hs

/-- Take a run whose steps all satisfy the assumption `L`. Where such a step satisfies `D`
exactly when it is good, and good steps keep the invariant, all steps satisfy `D` if and
only if all steps are good. -/
theorem meets_iff_meets {L : σ → α → Prop} (hiff : ∀ s a, I s → L s a → (D s a ↔ C s a))
    (hstep : ∀ s a, I s → L s a → C s a → I (step s a)) (s : σ) (as : List α) (hs : I s)
    (hL : Meets step L s as) :
    Meets step D s as ↔ Meets step C s as := by
  induction as generalizing s with
  | nil => exact Iff.rfl
  | cons a as ih =>
      obtain ⟨hLa, hLas⟩ := hL
      constructor
      · rintro ⟨hD, hrest⟩
        have hC := (hiff s a hs hLa).mp hD
        exact ⟨hC, (ih _ (hstep s a hs hLa hC) hLas).mp hrest⟩
      · rintro ⟨hC, hrest⟩
        exact ⟨(hiff s a hs hLa).mpr hC, (ih _ (hstep s a hs hLa hC) hLas).mpr hrest⟩

/-- Two conditions that agree on every step hold of the same runs. -/
theorem meets_congr (hiff : ∀ s a, D s a ↔ C s a) (s : σ) (as : List α) :
    Meets step D s as ↔ Meets step C s as := by
  induction as generalizing s with
  | nil => exact Iff.rfl
  | cons a as ih => exact and_congr (hiff s a) (ih _)

/-- A relation between the steps taken and the state, which good steps keep, holds at the
end. -/
theorem exec_history {I : List α → σ → Prop} (s : σ) (as : List α)
    (hstep : ∀ taken s, ∀ a ∈ as, I taken s → C s a → I (taken ++ [a]) (step s a))
    {taken : List α} (hs : I taken s) (h : Meets step C s as) :
    I (taken ++ as) (exec step s as) := by
  induction as generalizing s taken with
  | nil =>
      rw [List.append_nil]
      exact hs
  | cons a as ih =>
      have hrest := ih (step s a) (fun taken s b hb => hstep taken s b (List.mem_cons_of_mem a hb))
        (hstep taken s a List.mem_cons_self hs h.1) h.2
      rw [List.append_assoc] at hrest
      exact hrest

/-- A property that every step of the run keeps holds at its end. -/
theorem exec_keeps (s : σ) (as : List α) (hstep : ∀ s, ∀ a ∈ as, I s → I (step s a))
    (hs : I s) : I (exec step s as) := by
  induction as generalizing s with
  | nil => exact hs
  | cons a as ih =>
      have hrest : ∀ s, ∀ b ∈ as, I s → I (step s b) :=
        fun s b hb => hstep s b (List.mem_cons_of_mem a hb)
      exact ih (step s a) hrest (hstep s a List.mem_cons_self hs)

/-- A property that some step of the run establishes, and that every step keeps, holds at
its end. -/
theorem exec_of_mem (s : σ) (as : List α) (hstep : ∀ s, ∀ a ∈ as, I s → I (step s a))
    {a : α} (ha : a ∈ as) (hest : ∀ s, I (step s a)) : I (exec step s as) := by
  obtain ⟨pre, post, rfl⟩ := List.append_of_mem ha
  rw [exec_append, exec_cons]
  -- The steps after `a` cannot lose the property again.
  have hpost : ∀ s, ∀ b ∈ post, I s → I (step s b) :=
    fun s b hb => hstep s b (List.mem_append_right pre (List.mem_cons_of_mem a hb))
  exact exec_keeps _ post hpost (hest _)

/-- Where no step raises a measure, and every `a` lowers it, a run lowers it by the number
of times it takes `a`, as far as it goes. -/
theorem exec_le_sub_count [DecidableEq α] {f : σ → Nat} {a : α}
    (hkeep : ∀ s b, I s → I (step s b)) (hle : ∀ s b, I s → f (step s b) ≤ f s)
    (hlow : ∀ s, I s → f (step s a) ≤ f s - 1) (s : σ) (as : List α) (hs : I s) :
    f (exec step s as) ≤ f s - as.count a := by
  induction as generalizing s with
  | nil => simp
  | cons b as ih =>
      have hrest := ih (step s b) (hkeep s b hs)
      rw [exec_cons, List.count_cons]
      by_cases hb : b = a
      · subst hb
        have hstep := hlow s hs
        simp only [beq_self_eq_true, if_true]
        omega
      · have hstep := hle s b hs
        simp only [beq_iff_eq, hb, if_false]
        omega

/-- A property that is never lost, and that a step brings about exactly when it satisfies
`C`, holds at the end if and only if it held at the start or some step satisfied `C`. -/
theorem exec_iff_or_exists (hstep : ∀ s a, P (step s a) ↔ P s ∨ C s a) (s : σ) (as : List α) :
    P (exec step s as) ↔ P s ∨ ∃ pre a post, as = pre ++ a :: post ∧ C (exec step s pre) a := by
  induction as generalizing s with
  | nil => simp
  | cons b as ih =>
      rw [exec_cons, ih, hstep]
      constructor
      · rintro ((hs | hb) | ⟨pre, a, post, rfl, ha⟩)
        · exact .inl hs
        · exact .inr ⟨[], b, as, rfl, hb⟩
        · exact .inr ⟨b :: pre, a, post, rfl, ha⟩
      · rintro (hs | ⟨pre, a, post, heq, ha⟩)
        · exact .inl (.inl hs)
        · -- The step is the first one, or one of the rest.
          cases pre with
          | nil =>
              obtain ⟨rfl, rfl⟩ : b = a ∧ as = post := by simpa using heq
              exact .inl (.inr ha)
          | cons c pre =>
              obtain ⟨rfl, rfl⟩ : b = c ∧ as = pre ++ a :: post := by simpa using heq
              exact .inr ⟨pre, a, post, rfl, ha⟩

/-- The same, where the condition does not depend on the state. -/
theorem exec_iff_or_mem {C : α → Prop} (hstep : ∀ s a, P (step s a) ↔ P s ∨ C a) (s : σ)
    (as : List α) : P (exec step s as) ↔ P s ∨ ∃ a ∈ as, C a := by
  rw [exec_iff_or_exists hstep]
  refine or_congr_right ⟨?_, ?_⟩
  · rintro ⟨pre, a, post, rfl, ha⟩
    exact ⟨a, by simp, ha⟩
  · rintro ⟨a, hmem, ha⟩
    obtain ⟨pre, post, heq⟩ := List.append_of_mem hmem
    exact ⟨pre, a, post, heq, ha⟩

/-- Take an invariant that every step keeps. Where a step that satisfies `D` decides the
property by `C`, and any other step leaves it alone, the last step that satisfies `D`
decides it. -/
theorem exec_iff_last (hstep : ∀ s a, I s → (P (step s a) ↔ (D s a ∧ C s a) ∨ (¬ D s a ∧ P s)))
    (hinv : ∀ s a, I s → I (step s a)) (s : σ) (as : List α) (hs : I s) :
    P (exec step s as) ↔ (Meets step (fun s a => ¬ D s a) s as ∧ P s) ∨
      ∃ pre a post, as = pre ++ a :: post ∧ D (exec step s pre) a ∧ C (exec step s pre) a ∧
        Meets step (fun s a => ¬ D s a) (exec step s (pre ++ [a])) post := by
  induction as generalizing s with
  | nil => simp [Meets]
  | cons b as ih =>
      -- The first step counts only where no later one satisfies `D`.
      rw [exec_cons, ih _ (hinv s b hs), hstep s b hs]
      constructor
      · rintro (⟨hrest, ⟨hD, hC⟩ | ⟨hD, hP⟩⟩ | ⟨pre, a, post, rfl, hD, hC, hrest⟩)
        · exact .inr ⟨[], b, as, rfl, hD, hC, hrest⟩
        · exact .inl ⟨⟨hD, hrest⟩, hP⟩
        · exact .inr ⟨b :: pre, a, post, rfl, hD, hC, hrest⟩
      · rintro (⟨⟨hD, hrest⟩, hP⟩ | ⟨pre, a, post, heq, hD, hC, hrest⟩)
        · exact .inl ⟨hrest, .inr ⟨hD, hP⟩⟩
        · cases pre with
          | nil =>
              obtain ⟨rfl, rfl⟩ : b = a ∧ as = post := by simpa using heq
              exact .inl ⟨hrest, .inl ⟨hD, hC⟩⟩
          | cons c pre =>
              obtain ⟨rfl, rfl⟩ : b = c ∧ as = pre ++ a :: post := by simpa using heq
              exact .inr ⟨pre, a, post, rfl, hD, hC, hrest⟩

end

end WatchedAgent.Lib.Run
