import WatchedAgent.Model.PollingThread

/-!
# `WatchedAgent.Proofs.Shutdown`: ending a polling thread

The thread tests `active`, waits for the lock, and tests `active` again. The destructor
keeps the lock while it joins the thread. So what matters is where the thread stands
between the two tests (`Between`):

* `always_safe_of_meets`: when the destruction does not begin there, and the thread does
  not go there afterwards, nothing goes wrong.
* `meets_of_always_safe`: a thread that is there when the destruction has begun calls
  `collect()` or blocks the join, in every run that goes on long enough.
-/

set_option autoImplicit false

namespace WatchedAgent.Proofs

open WatchedAgent.Lib.Run
open WatchedAgent.Model.PollingThread

namespace Shutdown

/-- The destructor waits in `join` while the thread waits for the lock it holds. -/
def Deadlocked (s : State) : Prop := s.destructor = .joining ∧ s.thread = .locking

/-- No deadlock, and no call of `collect()` after the destruction had begun. -/
def Safe (s : State) : Prop := ¬ Deadlocked s ∧ s.late = false

/-- The thread has found `active` set, and has not tested it again. -/
def Between (s : State) : Prop := s.thread = .locking ∨ s.thread = .retest

/-- The destruction does not begin while the thread is between its two tests, and no first
test succeeds after it has begun. -/
def Good (s : State) : Move → Prop
  | .destructor => s.destructor = .alive → ¬ Between s
  | .thread => s.thread = .test → s.active = true → s.destructor = .alive
  | .timeout => True

instance (s : State) : Decidable (Deadlocked s) := inferInstanceAs (Decidable (_ ∧ _))

instance (s : State) : Decidable (Safe s) := inferInstanceAs (Decidable (_ ∧ _))

instance (s : State) : Decidable (Between s) := inferInstanceAs (Decidable (_ ∨ _))

instance : ∀ s a, Decidable (Good s a)
  | s, .destructor => inferInstanceAs (Decidable (s.destructor = .alive → ¬ Between s))
  | s, .thread => inferInstanceAs
      (Decidable (s.thread = .test → s.active = true → s.destructor = .alive))
  | _, .timeout => inferInstanceAs (Decidable True)

/-- Once the destruction has begun, the thread is not between its two tests. -/
structure Inv (s : State) : Prop where
  quiet : s.destructor ≠ .alive → ¬ Between s
  early : s.late = false

theorem Inv.safe {s : State} (h : Inv s) : Safe s := by
  refine ⟨fun hdead => ?_, h.early⟩
  have hbegun : s.destructor ≠ .alive := by simp [hdead.1]
  exact h.quiet hbegun (.inl hdead.2)

theorem inv_started : Inv started := ⟨fun h => absurd rfl h, rfl⟩

/-! ### What a step does -/

/-- The moves of the thread, with their conditions. -/
inductive ThreadMove (s : State) : State → Prop
  | blocked : ThreadMove s s
  | enter (hpc : s.thread = .test) (hact : s.active = true) :
      ThreadMove s { s with thread := .locking }
  | leave (hpc : s.thread = .test) (hact : s.active = false) :
      ThreadMove s { s with thread := .ended }
  | take (hpc : s.thread = .locking) (hfree : s.lock = none) :
      ThreadMove s { s with thread := .retest, lock := some .thread }
  | call (hpc : s.thread = .retest) (hact : s.active = true) :
      ThreadMove s { s with thread := .collecting, late := s.late || s.destructor != .alive }
  | skip (hpc : s.thread = .retest) (hact : s.active = false) :
      ThreadMove s { s with thread := .releasing }
  | collected (hpc : s.thread = .collecting) : ThreadMove s { s with thread := .releasing }
  | release (hpc : s.thread = .releasing) :
      ThreadMove s { s with thread := .waiting, lock := none }
  | killed (hpc : s.thread = .waiting) (hterm : s.terminate = true) :
      ThreadMove s { s with thread := .test }

theorem threadStep_move (s : State) : ThreadMove s (threadStep s) := by
  unfold threadStep
  cases hpc : s.thread with
  | test =>
      dsimp only
      by_cases hact : s.active = true
      · rw [if_pos hact]
        exact .enter hpc hact
      · rw [if_neg hact]
        exact .leave hpc (by simpa using hact)
  | locking =>
      dsimp only
      split
      · exact .take hpc ‹_›
      · exact .blocked
  | retest =>
      dsimp only
      split
      · exact .call hpc ‹_›
      · rename_i hact
        exact .skip hpc (by simpa using hact)
  | collecting => exact .collected hpc
  | releasing => exact .release hpc
  | waiting =>
      dsimp only
      split
      · exact .killed hpc ‹_›
      · exact .blocked
  | ended => exact .blocked

/-- The moves of the destruction, with their conditions. -/
inductive DtorMove (s : State) : State → Prop
  | blocked : DtorMove s s
  | begin (hpc : s.destructor = .alive) : DtorMove s { s with destructor := .derived }
  | base (hpc : s.destructor = .derived) : DtorMove s { s with destructor := .locking }
  | take (hpc : s.destructor = .locking) (hfree : s.lock = none) :
      DtorMove s { s with destructor := .clearing, lock := some .destructor }
  | clear (hpc : s.destructor = .clearing) (hact : s.active = true) :
      DtorMove s { s with destructor := .killing, active := false }
  | idle (hpc : s.destructor = .clearing) (hact : s.active = false) :
      DtorMove s { s with destructor := .joining }
  | kill (hpc : s.destructor = .killing) :
      DtorMove s { s with destructor := .joining, terminate := true }
  | joined (hpc : s.destructor = .joining) (hend : s.thread = .ended) :
      DtorMove s { s with destructor := .ended, lock := none }

theorem destructorStep_move (s : State) : DtorMove s (destructorStep s) := by
  unfold destructorStep
  cases hpc : s.destructor with
  | alive => exact .begin hpc
  | derived => exact .base hpc
  | locking =>
      dsimp only
      split
      · exact .take hpc ‹_›
      · exact .blocked
  | clearing =>
      dsimp only
      split
      · exact .clear hpc ‹_›
      · rename_i hact
        exact .idle hpc (by simpa using hact)
  | killing => exact .kill hpc
  | joining =>
      dsimp only
      split
      · exact .joined hpc ‹_›
      · exact .blocked
  | ended => exact .blocked

/-- The time is over, or the thread is not waiting. -/
theorem timeoutStep_cases (s : State) :
    timeoutStep s = s ∨ (s.thread = .waiting ∧ timeoutStep s = { s with thread := .test }) := by
  unfold timeoutStep
  split
  · exact .inr ⟨‹_›, rfl⟩
  · exact .inl rfl

/-! ### Good steps are safe -/

theorem inv_threadStep {s s' : State} (h : Inv s) (hgood : Good s .thread)
    (hmove : ThreadMove s s') : Inv s' := by
  cases hmove with
  | blocked => exact h
  | enter hpc hact =>
      -- A first test that succeeds is good before the destruction only.
      exact ⟨fun hbegun => absurd (hgood hpc hact) hbegun, h.early⟩
  | leave hpc hact => exact ⟨by simp [Between], h.early⟩
  | take hpc hfree => exact ⟨fun hbegun => absurd (.inl hpc) (h.quiet hbegun), h.early⟩
  | call hpc hact =>
      -- The thread was between the tests, so the destruction had not begun.
      have halive : s.destructor = .alive := by
        by_contra hbegun
        exact h.quiet hbegun (.inr hpc)
      exact ⟨by simp [Between], by simp [h.early, halive]⟩
  | skip hpc hact => exact ⟨by simp [Between], h.early⟩
  | collected hpc => exact ⟨by simp [Between], h.early⟩
  | release hpc => exact ⟨by simp [Between], h.early⟩
  | killed hpc hterm => exact ⟨by simp [Between], h.early⟩

theorem inv_destructorStep {s s' : State} (h : Inv s) (hgood : Good s .destructor)
    (hmove : DtorMove s s') : Inv s' := by
  cases hmove with
  | blocked => exact h
  | begin hpc => exact ⟨fun _ => hgood hpc, h.early⟩
  | base hpc => exact ⟨fun _ => h.quiet (by simp [hpc]), h.early⟩
  | take hpc hfree => exact ⟨fun _ => h.quiet (by simp [hpc]), h.early⟩
  | clear hpc hact => exact ⟨fun _ => h.quiet (by simp [hpc]), h.early⟩
  | idle hpc hact => exact ⟨fun _ => h.quiet (by simp [hpc]), h.early⟩
  | kill hpc => exact ⟨fun _ => h.quiet (by simp [hpc]), h.early⟩
  | joined hpc hend => exact ⟨fun _ => h.quiet (by simp [hpc]), h.early⟩

theorem inv_step {s : State} {a : Move} (h : Inv s) (hgood : Good s a) : Inv (step s a) := by
  cases a with
  | thread => exact inv_threadStep h hgood (threadStep_move s)
  | timeout =>
      show Inv (timeoutStep s)
      obtain heq | ⟨-, heq⟩ := timeoutStep_cases s
      · rw [heq]
        exact h
      · rw [heq]
        exact ⟨by simp [Between], h.early⟩
  | destructor => exact inv_destructorStep h hgood (destructorStep_move s)

/-! ### Bad steps are not -/

/-- Who holds the lock, and until when `active` is set. -/
structure Locks (s : State) : Prop where
  held : s.thread = .retest ∨ s.thread = .collecting ∨ s.thread = .releasing →
    s.lock = some .thread
  kept : s.destructor = .clearing ∨ s.destructor = .killing ∨ s.destructor = .joining →
    s.lock = some .destructor
  active : s.destructor = .alive ∨ s.destructor = .derived ∨ s.destructor = .locking →
    s.active = true
  ended : s.destructor = .ended → s.thread = .ended

theorem locks_started : Locks started where
  held := by simp [started]
  kept := by simp [started]
  active := by simp [started]
  ended := by simp [started]

/-- A thread that moves has not ended, so the destruction has not ended either. -/
theorem locks_threadStep {s s' : State} (h : Locks s) (hmove : ThreadMove s s') : Locks s' := by
  have hended : s.thread ≠ .ended → s.destructor ≠ .ended := fun hne hend => hne (h.ended hend)
  cases hmove with
  | blocked => exact h
  | enter hpc hact => exact ⟨by simp, h.kept, h.active, by simpa [hpc] using hended⟩
  | leave hpc hact => exact ⟨by simp, h.kept, h.active, by simp⟩
  | take hpc hfree =>
      -- The lock was free, so the destructor did not hold it.
      refine ⟨by simp, fun hdtor => ?_, h.active, by simpa [hpc] using hended⟩
      have hheld := h.kept hdtor
      rw [hfree] at hheld
      exact absurd hheld (by simp)
  | call hpc hact => exact ⟨fun _ => h.held (.inl hpc), h.kept, h.active,
      by simpa [hpc] using hended⟩
  | skip hpc hact => exact ⟨fun _ => h.held (.inl hpc), h.kept, h.active,
      by simpa [hpc] using hended⟩
  | collected hpc => exact ⟨fun _ => h.held (.inr (.inl hpc)), h.kept, h.active,
      by simpa [hpc] using hended⟩
  | release hpc =>
      -- The thread held the lock, so the destructor did not.
      refine ⟨by simp, fun hdtor => ?_, h.active, by simpa [hpc] using hended⟩
      have hheld := h.kept hdtor
      rw [h.held (.inr (.inr hpc))] at hheld
      exact absurd hheld (by simp)
  | killed hpc hterm => exact ⟨by simp, h.kept, h.active, by simpa [hpc] using hended⟩

theorem locks_destructorStep {s s' : State} (h : Locks s) (hmove : DtorMove s s') :
    Locks s' := by
  cases hmove with
  | blocked => exact h
  | begin hpc => exact ⟨h.held, by simp, fun _ => h.active (.inl hpc), by simp⟩
  | base hpc => exact ⟨h.held, by simp, fun _ => h.active (.inr (.inl hpc)), by simp⟩
  | take hpc hfree =>
      refine ⟨fun hthread => ?_, by simp, by simp, by simp⟩
      have hheld := h.held hthread
      rw [hfree] at hheld
      exact absurd hheld (by simp)
  | clear hpc hact => exact ⟨h.held, fun _ => h.kept (.inl hpc), by simp, by simp⟩
  | idle hpc hact => exact ⟨h.held, fun _ => h.kept (.inl hpc), by simp, by simp⟩
  | kill hpc => exact ⟨h.held, fun _ => h.kept (.inr (.inl hpc)), by simp, by simp⟩
  | joined hpc hend => exact ⟨by simp [hend], by simp, by simp, fun _ => hend⟩

theorem locks_step {s : State} (h : Locks s) (a : Move) : Locks (step s a) := by
  cases a with
  | thread => exact locks_threadStep h (threadStep_move s)
  | timeout =>
      show Locks (timeoutStep s)
      obtain heq | ⟨hpc, heq⟩ := timeoutStep_cases s
      · rw [heq]
        exact h
      · rw [heq]
        exact ⟨by simp, h.kept, h.active, fun hend => by simpa [hpc] using h.ended hend⟩
  | destructor => exact locks_destructorStep h (destructorStep_move s)

/-- The thread is between its two tests when the destruction has begun. -/
def Doomed (s : State) : Prop := s.destructor ≠ .alive ∧ Between s

/-- A thread that holds the lock keeps the destruction from clearing `active`. -/
theorem active_of_retest {s : State} (hl : Locks s) (hpc : s.thread = .retest) :
    s.active = true := by
  have hheld := hl.held (.inl hpc)
  have hkept : ¬ (s.destructor = .clearing ∨ s.destructor = .killing ∨ s.destructor = .joining) := by
    intro hdtor
    have hdtor := hl.kept hdtor
    rw [hheld] at hdtor
    exact absurd hdtor (by simp)
  have hended : s.destructor ≠ .ended := fun hend => by simpa [hpc] using hl.ended hend
  apply hl.active
  cases hd : s.destructor <;> simp_all

theorem doomed_threadStep {s s' : State} (hl : Locks s) (h : Doomed s)
    (hmove : ThreadMove s s') : Doomed s' ∨ ¬ Safe s' := by
  obtain ⟨hbegun, hbetween⟩ := h
  cases hmove with
  | blocked => exact .inl ⟨hbegun, hbetween⟩
  | take hpc hfree => exact .inl ⟨hbegun, .inr rfl⟩
  | call hpc hact =>
      -- This is the late call.
      right
      rintro ⟨-, hlate⟩
      simp [hbegun] at hlate
  | skip hpc hact =>
      rw [active_of_retest hl hpc] at hact
      exact absurd hact (by simp)
  | enter hpc => simp [Between, hpc] at hbetween
  | leave hpc => simp [Between, hpc] at hbetween
  | collected hpc => simp [Between, hpc] at hbetween
  | release hpc => simp [Between, hpc] at hbetween
  | killed hpc => simp [Between, hpc] at hbetween

theorem doomed_destructorStep {s s' : State} (hl : Locks s) (h : Doomed s)
    (hmove : DtorMove s s') : Doomed s' ∨ ¬ Safe s' := by
  obtain ⟨hbegun, hbetween⟩ := h
  -- Where the destructor has the lock, the thread can only wait for it.
  have hwait : s.lock = some .destructor → s.thread = .locking := by
    intro hlock
    refine hbetween.resolve_right fun hpc => ?_
    rw [hl.held (.inl hpc)] at hlock
    exact absurd hlock (by simp)
  cases hmove with
  | blocked => exact .inl ⟨hbegun, hbetween⟩
  | begin hpc => exact absurd hpc hbegun
  | base hpc => exact .inl ⟨by simp, hbetween⟩
  | take hpc hfree => exact .inl ⟨by simp, hbetween⟩
  | clear hpc hact => exact .inl ⟨by simp, hbetween⟩
  | idle hpc hact => exact .inr fun hsafe => hsafe.1 ⟨rfl, hwait (hl.kept (.inl hpc))⟩
  | kill hpc => exact .inr fun hsafe => hsafe.1 ⟨rfl, hwait (hl.kept (.inr (.inl hpc)))⟩
  | joined hpc hend => simp [Between, hend] at hbetween

/-- A doomed state stays doomed until something goes wrong. -/
theorem doomed_step {s : State} (hl : Locks s) (h : Doomed s) (a : Move) :
    Doomed (step s a) ∨ ¬ Safe (step s a) := by
  cases a with
  | thread => exact doomed_threadStep hl h (threadStep_move s)
  | timeout =>
      left
      show Doomed (timeoutStep s)
      obtain heq | ⟨hwait, -⟩ := timeoutStep_cases s
      · rw [heq]
        exact h
      · have hbetween := h.2
        simp [Between, hwait] at hbetween
  | destructor => exact doomed_destructorStep hl h (destructorStep_move s)

/-- A safe run from a doomed state does not reach the end of the destruction. -/
theorem not_ended_of_doomed {s : State} (as : List Move) (hl : Locks s) (h : Doomed s)
    (hsafe : Always step Safe s as) : (exec step s as).destructor ≠ .ended := by
  induction as generalizing s with
  | nil =>
      intro hend
      have hbetween := h.2
      simp [Between, hl.ended hend] at hbetween
  | cons a as ih =>
      have hnext := (doomed_step hl h a).resolve_right (not_not_intro hsafe.2.head)
      exact ih (locks_step hl a) hnext hsafe.2

/-- A bad step leads to a doomed state. -/
theorem doomed_of_not_good {s : State} {a : Move} (h : ¬ Good s a) : Doomed (step s a) := by
  cases a with
  | timeout => exact absurd trivial h
  | destructor =>
      obtain ⟨halive, hbetween⟩ : s.destructor = .alive ∧ Between s := by
        simpa [Good] using h
      show Doomed (destructorStep s)
      unfold destructorStep
      rw [halive]
      exact ⟨by simp, hbetween⟩
  | thread =>
      obtain ⟨hpc, hact, hbegun⟩ : s.thread = .test ∧ s.active = true ∧ ¬ s.destructor = .alive := by
        simpa [Good] using h
      show Doomed (threadStep s)
      unfold threadStep
      rw [hpc]
      exact ⟨hbegun, .inl (by simp [hact])⟩

/-- The same from any state where the lock is where it should be. -/
theorem meets_of_ended {s : State} (as : List Move) (hl : Locks s)
    (hend : (exec step s as).destructor = .ended) (hsafe : Always step Safe s as) :
    Meets step Good s as := by
  induction as generalizing s with
  | nil => trivial
  | cons a as ih =>
      have hgood : Good s a := by
        by_contra hbad
        exact not_ended_of_doomed as (locks_step hl a) (doomed_of_not_good hbad) hsafe.2 hend
      exact ⟨hgood, ih (locks_step hl a) hend hsafe.2⟩

end Shutdown

open Shutdown

/-- A run whose steps are all good is safe in every state it reaches. -/
theorem always_safe_of_meets (as : List Move) (h : Meets step Good started as) :
    Always step Safe started as :=
  always_of_meets (fun _ => Inv.safe) (fun _ _ => inv_step) started as inv_started h

/-- One pass, then an orderly end: the destruction begins while the thread waits. -/
def orderlyRun : List Move :=
  [.thread, .thread, .thread, .thread, .thread, .destructor, .destructor, .destructor,
    .destructor, .destructor, .thread, .thread, .destructor]

theorem always_safe_orderly :
    Meets step Good started orderlyRun ∧ Always step Safe started orderlyRun :=
  ⟨by decide, always_safe_of_meets orderlyRun (by decide)⟩

/-- The destruction begins after a successful first test: either party can be the first to
take the lock. -/
theorem shutdown_fails :
    Deadlocked (exec step started [.thread, .destructor, .destructor, .destructor, .destructor,
      .destructor]) ∧
    (exec step started [.thread, .destructor, .thread, .thread]).late = true := by
  decide

/-- A run that ends the destruction is safe only when all its steps are good. -/
theorem meets_of_always_safe (as : List Move) (hend : (exec step started as).destructor = .ended)
    (hsafe : Always step Safe started as) : Meets step Good started as :=
  meets_of_ended as locks_started hend hsafe

end WatchedAgent.Proofs
