import WatchedAgent.Model.DetectionThread

/-!
# `WatchedAgent.Proofs.DetectionShutdown`: ending the detection thread

The destruction of the manager takes no lock, so nothing can keep it from the join, and
there both flags are set as the thread has to find them.

* `detection_shutdown`: the thread calls `find()` at most once after `active` has been
  cleared, and never once the destruction is over. A run with enough steps of the two
  parties ends the destruction, whatever it does besides.

The one late call can happen: the loop makes its first call without a test, and any other
call some time after one.
-/

set_option autoImplicit false

namespace WatchedAgent.Proofs

open WatchedAgent.Lib.Run
open WatchedAgent.Model.PollingThread (Move)
open WatchedAgent.Model.DetectionThread

namespace DetectionShutdown

/-- The steps the destruction takes to reach the join. -/
def toJoin (s : State) : Nat :=
  match s.destructor with
  | .alive => 4
  | .test => 3
  | .clearing => 2
  | .killing => 1
  | .joining => 0
  | .ended => 0

/-- The steps the thread takes to its end, once both flags are set. -/
def toEnd (s : State) : Nat :=
  match s.thread with
  | .entering => 3
  | .finding => 2
  | .test => 1
  | .waiting => 1
  | .retest => 1
  | .ended => 0

/-- The steps that are left when the thread has ended. -/
def toOver (s : State) : Nat := if s.destructor = .ended then 0 else 1

/-- The call of `find()` the thread is about to make. -/
def toCome (s : State) : Nat := if s.thread = .entering then 1 else 0

/-- What the flags say about the two parties. A call that is about to be made counts as
late as soon as `active` is cleared. -/
structure Inv (s : State) : Prop where
  active : s.active = true ↔ 2 ≤ toJoin s
  killed : toJoin s = 0 → s.terminate = true
  ended : s.destructor = .ended → s.thread = .ended
  early : s.active = true → s.late = 0
  once : s.active = false → s.late + toCome s ≤ 1

theorem inv_started : Inv started where
  active := by simp [started, toJoin]
  killed := by simp [started, toJoin]
  ended := by simp [started]
  early := by simp [started]
  once := by simp [started]

theorem Inv.late_le {s : State} (h : Inv s) : s.late ≤ 1 := by
  cases hact : s.active with
  | true =>
      rw [h.early hact]
      exact Nat.zero_le 1
  | false => exact Nat.le_trans (Nat.le_add_right _ _) (h.once hact)

theorem Inv.active_eq_false {s : State} (h : Inv s) (hjoin : toJoin s ≤ 1) :
    s.active = false := by
  cases hact : s.active with
  | true =>
      have hfar := h.active.mp hact
      omega
  | false => rfl

/-- A thread that moves has not ended, so the destruction has not ended either. -/
theorem Inv.not_over {s : State} (h : Inv s) {pc next : ThreadPc} (hpc : s.thread = pc)
    (hne : pc ≠ .ended) (hend : s.destructor = .ended) : next = .ended := by
  rw [h.ended hend] at hpc
  exact absurd hpc.symm hne

/-- The thread goes anywhere but to the next call. -/
theorem Inv.moved {s : State} (h : Inv s) {pc : ThreadPc} (hcall : pc ≠ .entering)
    (hend : s.destructor = .ended → pc = .ended) : Inv { s with thread := pc } where
  active := h.active
  killed := h.killed
  ended := hend
  early := h.early
  once := fun _ => by simpa [toCome, hcall] using h.late_le

/-! ### What a step does -/

/-- The moves of the thread, by its own step or by the time, with their conditions. -/
inductive ThreadMove (s : State) : State → Prop
  | blocked : ThreadMove s s
  | call (hpc : s.thread = .entering) (hact : s.active = true) :
      ThreadMove s { s with thread := .finding }
  | late (hpc : s.thread = .entering) (hact : s.active = false) :
      ThreadMove s { s with thread := .finding, late := s.late + 1 }
  | found (hpc : s.thread = .finding) : ThreadMove s { s with thread := .test }
  | rest (hpc : s.thread = .test) (hact : s.active = true) :
      ThreadMove s { s with thread := .waiting }
  | leave (hpc : s.thread = .test) (hact : s.active = false) :
      ThreadMove s { s with thread := .ended }
  | killed (hpc : s.thread = .waiting) (hterm : s.terminate = true) :
      ThreadMove s { s with thread := .ended }
  | awake (hpc : s.thread = .waiting) (hterm : s.terminate = false) :
      ThreadMove s { s with thread := .retest }
  | again (hpc : s.thread = .retest) (hact : s.active = true) :
      ThreadMove s { s with thread := .entering }
  | stop (hpc : s.thread = .retest) (hact : s.active = false) :
      ThreadMove s { s with thread := .ended }

theorem threadStep_move (s : State) : ThreadMove s (threadStep s) := by
  unfold threadStep
  cases hpc : s.thread with
  | entering =>
      dsimp only
      by_cases hact : s.active = true
      · simp only [if_pos hact]
        exact .call hpc hact
      · simp only [if_neg hact]
        exact .late hpc (by simpa using hact)
  | finding => exact .found hpc
  | test =>
      dsimp only
      by_cases hact : s.active = true
      · simp only [if_pos hact]
        exact .rest hpc hact
      · simp only [if_neg hact]
        exact .leave hpc (by simpa using hact)
  | waiting =>
      dsimp only
      split
      · exact .killed hpc ‹_›
      · exact .blocked
  | retest =>
      dsimp only
      by_cases hact : s.active = true
      · simp only [if_pos hact]
        exact .again hpc hact
      · simp only [if_neg hact]
        exact .stop hpc (by simpa using hact)
  | ended => exact .blocked

theorem timeoutStep_move (s : State) : ThreadMove s (timeoutStep s) := by
  unfold timeoutStep
  split
  · rename_i hpc
    by_cases hterm : s.terminate = true
    · rw [if_pos hterm]
      exact .killed hpc hterm
    · rw [if_neg hterm]
      exact .awake hpc (by simpa using hterm)
  · exact .blocked

/-- The moves of the destruction, with their conditions. -/
inductive DtorMove (s : State) : State → Prop
  | blocked : DtorMove s s
  | begin (hpc : s.destructor = .alive) : DtorMove s { s with destructor := .test }
  | enter (hpc : s.destructor = .test) (hact : s.active = true) :
      DtorMove s { s with destructor := .clearing }
  | idle (hpc : s.destructor = .test) (hact : s.active = false) :
      DtorMove s { s with destructor := .ended }
  | clear (hpc : s.destructor = .clearing) :
      DtorMove s { s with destructor := .killing, active := false }
  | kill (hpc : s.destructor = .killing) :
      DtorMove s { s with destructor := .joining, terminate := true }
  | joined (hpc : s.destructor = .joining) (hend : s.thread = .ended) :
      DtorMove s { s with destructor := .ended }

theorem destructorStep_move (s : State) : DtorMove s (destructorStep s) := by
  unfold destructorStep
  cases hpc : s.destructor with
  | alive => exact .begin hpc
  | test =>
      dsimp only
      by_cases hact : s.active = true
      · simp only [if_pos hact]
        exact .enter hpc hact
      · simp only [if_neg hact]
        exact .idle hpc (by simpa using hact)
  | clearing => exact .clear hpc
  | killing => exact .kill hpc
  | joining =>
      dsimp only
      split
      · exact .joined hpc ‹_›
      · exact .blocked
  | ended => exact .blocked

/-! ### The invariant -/

theorem inv_threadMove {s s' : State} (h : Inv s) (hmove : ThreadMove s s') : Inv s' := by
  cases hmove with
  | blocked => exact h
  | call hpc hact => exact h.moved (by decide) (h.not_over hpc (by decide))
  | late hpc hact =>
      -- The call that was to come is the late one.
      have honce := h.once hact
      simp only [toCome, hpc, if_true] at honce
      exact ⟨h.active, h.killed, h.not_over hpc (by decide),
        by simp [hact], fun _ => by simpa [toCome] using honce⟩
  | found hpc => exact h.moved (by decide) (h.not_over hpc (by decide))
  | rest hpc hact => exact h.moved (by decide) (h.not_over hpc (by decide))
  | leave hpc hact => exact h.moved (by decide) fun _ => rfl
  | killed hpc hterm => exact h.moved (by decide) fun _ => rfl
  | awake hpc hterm => exact h.moved (by decide) (h.not_over hpc (by decide))
  | again hpc hact =>
      -- The flag was still set when the thread read it.
      exact ⟨h.active, h.killed, h.not_over hpc (by decide), h.early,
        by simp [hact]⟩
  | stop hpc hact => exact h.moved (by decide) fun _ => rfl

theorem inv_dtorMove {s s' : State} (h : Inv s) (hmove : DtorMove s s') : Inv s' := by
  cases hmove with
  | blocked => exact h
  | begin hpc =>
      have hact := h.active.mpr (by simp [toJoin, hpc])
      exact ⟨by simp [toJoin, hact], by simp [toJoin], by simp, h.early, h.once⟩
  | enter hpc hact => exact ⟨by simp [toJoin, hact], by simp [toJoin], by simp, h.early, h.once⟩
  | idle hpc hact =>
      rw [h.active.mpr (by simp [toJoin, hpc])] at hact
      exact absurd hact (by simp)
  | clear hpc =>
      -- No call has been late so far, and one is to come at most.
      have hearly := h.early (h.active.mpr (by simp [toJoin, hpc]))
      refine ⟨by simp [toJoin], by simp [toJoin], by simp, by simp, fun _ => ?_⟩
      simp only [toCome, hearly]
      split <;> simp
  | kill hpc =>
      have hact := h.active_eq_false (by simp [toJoin, hpc])
      exact ⟨by simp [toJoin, hact], fun _ => rfl, by simp, h.early, h.once⟩
  | joined hpc hend =>
      have hact := h.active_eq_false (by simp [toJoin, hpc])
      exact ⟨by simp [toJoin, hact], fun _ => h.killed (by simp [toJoin, hpc]), fun _ => hend,
        h.early, h.once⟩

/-- A step is a move of the thread or of the destruction. -/
theorem step_move (s : State) (a : Move) : ThreadMove s (step s a) ∨ DtorMove s (step s a) := by
  cases a with
  | thread => exact .inl (threadStep_move s)
  | timeout => exact .inl (timeoutStep_move s)
  | destructor => exact .inr (destructorStep_move s)

theorem inv_step (s : State) (a : Move) (h : Inv s) : Inv (step s a) :=
  (step_move s a).elim (inv_threadMove h) (inv_dtorMove h)

/-! ### The way to the end -/

theorem toJoin_threadMove {s s' : State} (hmove : ThreadMove s s') : toJoin s' = toJoin s := by
  cases hmove <;> rfl

theorem toJoin_dtorMove {s s' : State} (hmove : DtorMove s s') : toJoin s' ≤ toJoin s := by
  cases hmove <;> simp [toJoin, *]

theorem toJoin_step (s : State) (a : Move) : toJoin (step s a) ≤ toJoin s :=
  (step_move s a).elim (fun h => Nat.le_of_eq (toJoin_threadMove h)) toJoin_dtorMove

/-- Nothing makes the destruction wait before the join. -/
theorem toJoin_destructor (s : State) : toJoin (step s .destructor) ≤ toJoin s - 1 := by
  show toJoin (destructorStep s) ≤ toJoin s - 1
  unfold destructorStep
  cases hpc : s.destructor with
  | alive => simp [toJoin, hpc]
  | test => cases hact : s.active <;> simp [toJoin, hpc]
  | clearing => simp [toJoin, hpc]
  | killing => simp [toJoin, hpc]
  | joining =>
      dsimp only
      split <;> simp [toJoin, hpc]
  | ended => simp [toJoin, hpc]

/-- Both flags are set as the thread has to find them. -/
structure Joining (s : State) : Prop where
  inv : Inv s
  join : toJoin s = 0

theorem Joining.active {s : State} (h : Joining s) : s.active = false :=
  h.inv.active_eq_false (by simp [h.join])

theorem Joining.terminate {s : State} (h : Joining s) : s.terminate = true := h.inv.killed h.join

theorem joining_step (s : State) (a : Move) (h : Joining s) : Joining (step s a) where
  inv := inv_step s a h.inv
  join := Nat.le_zero.mp (h.join ▸ toJoin_step s a)

theorem toEnd_threadMove {s s' : State} (h : Joining s) (hmove : ThreadMove s s') :
    toEnd s' ≤ toEnd s := by
  cases hmove with
  | again hpc hact =>
      rw [h.active] at hact
      exact absurd hact (by simp)
  | _ => simp [toEnd, *]

theorem toEnd_dtorMove {s s' : State} (hmove : DtorMove s s') : toEnd s' = toEnd s := by
  cases hmove <;> rfl

theorem toEnd_step (s : State) (a : Move) (h : Joining s) : toEnd (step s a) ≤ toEnd s :=
  (step_move s a).elim (toEnd_threadMove h) fun hmove => Nat.le_of_eq (toEnd_dtorMove hmove)

/-- Nothing makes the thread wait any more. -/
theorem toEnd_thread (s : State) (h : Joining s) : toEnd (step s .thread) ≤ toEnd s - 1 := by
  show toEnd (threadStep s) ≤ toEnd s - 1
  unfold threadStep
  rw [h.active, h.terminate]
  cases hpc : s.thread <;> simp [toEnd, hpc]

/-- The thread has ended, and the join has not been left without it. -/
structure Ending (s : State) : Prop where
  joining : Joining s
  thread : toEnd s = 0

theorem Ending.thread_eq {s : State} (h : Ending s) : s.thread = .ended := by
  have hend := h.thread
  unfold toEnd at hend
  cases hpc : s.thread with
  | ended => rfl
  | _ => simp [hpc] at hend

theorem ending_step (s : State) (a : Move) (h : Ending s) : Ending (step s a) where
  joining := joining_step s a h.joining
  thread := Nat.le_zero.mp (h.thread ▸ toEnd_step s a h.joining)

theorem toOver_dtorMove {s s' : State} (hmove : DtorMove s s') : toOver s' ≤ toOver s := by
  cases hmove <;> simp [toOver, *]

theorem toOver_threadMove {s s' : State} (hmove : ThreadMove s s') : toOver s' = toOver s := by
  cases hmove <;> rfl

theorem toOver_step (s : State) (a : Move) : toOver (step s a) ≤ toOver s :=
  (step_move s a).elim (fun h => Nat.le_of_eq (toOver_threadMove h)) toOver_dtorMove

theorem toOver_destructor (s : State) (h : Ending s) :
    toOver (step s .destructor) ≤ toOver s - 1 := by
  show toOver (destructorStep s) ≤ toOver s - 1
  have hjoin := h.joining.join
  unfold destructorStep
  cases hpc : s.destructor with
  | joining => simp [toOver, h.thread_eq, hpc]
  | ended => simp [toOver, hpc]
  | _ => simp [toJoin, hpc] at hjoin

theorem toEnd_le (s : State) : toEnd s ≤ 3 := by
  unfold toEnd
  split <;> decide

/-! ### Runs -/

theorem inv_run (as : List Move) : Inv (exec step started as) :=
  exec_keeps started as (fun s a _ => inv_step s a) inv_started

/-- Four steps of the destruction reach the join. -/
theorem joining_of_count (as : List Move) (h : 4 ≤ as.count .destructor) :
    Joining (exec step started as) := by
  have hle : toJoin (exec step started as) ≤ toJoin started - as.count .destructor :=
    exec_le_sub_count inv_step (fun s a _ => toJoin_step s a) (fun s _ => toJoin_destructor s)
      started as inv_started
  have hstart : toJoin started = 4 := rfl
  exact ⟨inv_run as, by omega⟩

/-- Three steps of the thread end it then. -/
theorem ending_of_count {s : State} (hs : Joining s) (as : List Move)
    (h : 3 ≤ as.count .thread) : Ending (exec step s as) := by
  have hle : toEnd (exec step s as) ≤ toEnd s - as.count .thread :=
    exec_le_sub_count joining_step toEnd_step toEnd_thread s as hs
  have hmost := toEnd_le s
  exact ⟨exec_keeps s as (fun s a _ => joining_step s a) hs, by omega⟩

/-- One more step of the destruction leaves the join. -/
theorem ended_of_count {s : State} (hs : Ending s) (as : List Move)
    (h : 1 ≤ as.count .destructor) : (exec step s as).destructor = .ended := by
  have hle : toOver (exec step s as) ≤ toOver s - as.count .destructor :=
    exec_le_sub_count ending_step (fun s a _ => toOver_step s a) toOver_destructor s as hs
  by_contra hne
  have hover : toOver (exec step s as) = 1 := if_neg hne
  have hmost : toOver s ≤ 1 := by
    unfold toOver
    split <;> decide
  omega

end DetectionShutdown

open DetectionShutdown

/-- The thread calls `find()` at most once after `active` has been cleared, and the
destruction does not end before the thread. It does end in every run with four steps of the
destruction, then three of the thread, then one more of the destruction, whatever steps
stand between them. -/
theorem detection_shutdown (as : List Move) :
    (exec step started as).late ≤ 1 ∧
    ((exec step started as).destructor = .ended → (exec step started as).thread = .ended) ∧
    ∀ first second last : List Move, as = first ++ second ++ last →
      4 ≤ first.count .destructor → 3 ≤ second.count .thread → 1 ≤ last.count .destructor →
      (exec step started as).destructor = .ended := by
  refine ⟨(inv_run as).late_le, (inv_run as).ended, ?_⟩
  rintro first second last rfl hfirst hsecond hlast
  have hjoining := joining_of_count first hfirst
  have hending := ending_of_count hjoining second hsecond
  rw [exec_append, exec_append]
  exact ended_of_count hending last hlast

/-- After one pass and a wait the thread finds `active` set, and the destruction goes to the
join before the thread calls `find()` again. -/
def overtaken : List Move :=
  [.thread, .thread, .thread, .timeout, .thread, .destructor, .destructor, .destructor,
    .destructor]

/-- The late call, and the way out of the loop. -/
def lastPass : List Move := [.thread, .thread, .thread]

theorem detection_shutdown_late :
    (exec step started (overtaken ++ lastPass ++ [.destructor])).late = 1 ∧
    (exec step started (overtaken ++ lastPass ++ [.destructor])).destructor = .ended :=
  ⟨by decide, (detection_shutdown _).2.2 overtaken lastPass [.destructor] rfl (by decide)
    (by decide) (by decide)⟩

end WatchedAgent.Proofs
