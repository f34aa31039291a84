import Mathlib.Data.List.DropRight
import WatchedAgent.Model.HomePage
import WatchedAgent.Proofs.ManagerOps

/-!
# `WatchedAgent.Proofs.StatusReports`: what the two reports on a service say

The home page and the status document each have a copy of the loops that decide whether the
handler is asked. `counts_eq_reported` compares the two for any handlers: both ask the handler
exactly where something fails, and what it answers excuses the same entries on both sides.

The loop over the subprocesses writes element `n` for the `n`-th subprocess and skips those that
are dead, so `subprocess` has a null for a dead one with a live one after it.
`subprocess_eq_iff`: the elements are the live subprocesses exactly where no dead one stands
before a live one.
-/

set_option autoImplicit false

namespace WatchedAgent.Proofs

open WatchedAgent.Lib
open WatchedAgent.Model

namespace StatusReports

/-! ### The home page -/

/-- The statuses in a document. -/
def statuses (doc : StatusDoc) : List String :=
  doc.sockets.map SocketStatus.status ++ doc.process.map ProcessStatus.status

/-- The entries that a document reports as failed. -/
def reportedFailed (doc : StatusDoc) : Nat := (statuses doc).count "failed"

variable (os : OsState)

/-- A socket or a main process of the service fails. -/
def Fails (s : Service) : Prop :=
  (∃ i ∈ s.sockets, s.haveSocket os i.id = false) ∨ ∃ p ∈ s.mainProcess, p.getStatus os = false

/-- The handler is asked and throws. -/
def HandlerThrows (handlers : Handlers) (s : Service) : Prop :=
  ∃ handler, s.handler = some handler ∧ Fails os s ∧ handlers handler os s = none

/-- The service with which the functions go on, and whether its failures are excused: the answer
of the handler where something fails, and the service as it is where nothing fails or there is no
handler. -/
def GoesOnWith (handlers : Handlers) (s : Service) (r : Service × Bool) : Prop :=
  (∃ handler, s.handler = some handler ∧ Fails os s ∧ handlers handler os s = some r) ∨
    ((s.handler = none ∨ ¬ Fails os s) ∧ r = (s, false))

/-- The number of sockets and main processes that fail. -/
def failures (s : Service) : Nat :=
  s.sockets.countP (fun i => !s.haveSocket os i.id)
    + s.mainProcess.countP (fun p => !p.getStatus os)

/-- An entry counts as failed where its status is `failed`. -/
theorem status_eq_failed_iff : ∀ works isBlackout : Bool,
    (if works then "ok" else Service.failedText isBlackout) = "failed"
      ↔ (!works && !isBlackout) = true := by
  decide

theorem status_processStatus (isBlackout : Bool) (p : Process) :
    (Service.processStatus os isBlackout p).status
      = if p.getStatus os then "ok" else Service.failedText isBlackout := by
  unfold Service.processStatus
  split <;> rfl

/-- The statuses of a document, entry by entry. -/
theorem count_failed {α : Type} (status : α → String) (works : α → Bool) (isBlackout : Bool)
    (hstatus : ∀ a, status a = if works a then "ok" else Service.failedText isBlackout)
    (l : List α) :
    (l.map status).count "failed" = l.countP (fun a => !works a && !isBlackout) := by
  rw [List.count, List.countP_map]
  refine List.countP_congr (fun a _ => ?_)
  rw [Function.comp_apply, beq_iff_eq, hstatus]
  exact status_eq_failed_iff (works a) isBlackout

/-- An entry either counts as failed or as working. -/
theorem length_eq_countP_add {α : Type} (fails : α → Bool) (l : List α) :
    l.length = l.countP (fun a => !fails a) + l.countP fails := by
  rw [List.length_eq_countP_add_countP fails, Nat.add_comm]
  simp only [decide_not, Bool.decide_eq_true]

theorem failed_iff (s : Service) : s.failed os = true ↔ Fails os s := by
  unfold Service.failed Fails
  rw [Bool.or_eq_true, List.any_eq_true, List.any_eq_true]
  simp only [Bool.not_eq_true']

/-- Either the handler throws, or the functions go on with its answer. -/
theorem askHandlerOf_cases (handlers : Handlers) (s : Service) :
    (HandlerThrows os handlers s ∧ s.askHandlerOf handlers os = none) ∨
      ∃ r, GoesOnWith os handlers s r ∧ s.askHandlerOf handlers os = some r := by
  unfold Service.askHandlerOf
  cases hhandler : s.handler with
  | none => exact .inr ⟨(s, false), .inr ⟨.inl hhandler, rfl⟩, rfl⟩
  | some handler =>
      cases hfailed : s.failed os with
      | false =>
          have hnot : ¬ Fails os s := fun h => by
            rw [(failed_iff os s).mpr h] at hfailed
            exact Bool.noConfusion hfailed
          exact .inr ⟨(s, false), .inr ⟨.inr hnot, rfl⟩, rfl⟩
      | true =>
          have hfails := (failed_iff os s).mp hfailed
          cases hanswer : handlers handler os s with
          | none => exact .inl ⟨⟨handler, hhandler, hfails, hanswer⟩, hanswer⟩
          | some r => exact .inr ⟨r, .inl ⟨handler, hhandler, hfails, hanswer⟩, hanswer⟩

/-- No entry fails under a blackout. -/
theorem countP_excused {α : Type} (works : α → Bool) (isBlackout : Bool) (l : List α) :
    l.countP (fun a => !works a && !isBlackout)
      = if isBlackout then 0 else l.countP (fun a => !works a) := by
  cases isBlackout with
  | false => simp only [Bool.not_false, Bool.and_true, Bool.false_eq_true, if_false]
  | true => simp only [Bool.not_true, Bool.and_false, List.countP_false, if_true,
      Function.const_apply]

theorem reportedFailed_writeStatus (s : Service) (isBlackout : Bool) :
    reportedFailed (s.writeStatus os isBlackout).2 = if isBlackout then 0 else failures os s := by
  unfold reportedFailed statuses Service.writeStatus failures
  have hsockets := count_failed (SocketStatus.status ∘ s.socketStatus os isBlackout)
    (fun i => s.haveSocket os i.id) isBlackout (fun _ => rfl) s.sockets
  have hmain := count_failed (ProcessStatus.status ∘ Service.processStatus os isBlackout)
    (fun p => p.getStatus os) isBlackout (status_processStatus os isBlackout) s.mainProcess
  rw [List.map_map, List.map_map, List.count_append, hsockets, hmain, countP_excused,
    countP_excused]
  cases isBlackout <;> rfl

theorem failed_countEntries (s : Service) (isBlackout : Bool) :
    (s.countEntries os isBlackout).failed = if isBlackout then 0 else failures os s := by
  unfold Service.countEntries failures
  dsimp only
  rw [Service.foldl_countEntry, Service.foldl_countEntry]
  dsimp only
  rw [Nat.zero_add, countP_excused, countP_excused]
  cases isBlackout <;> rfl

theorem ok_add_failed_countEntries (s : Service) (isBlackout : Bool) :
    (s.countEntries os isBlackout).ok + (s.countEntries os isBlackout).failed
      = s.sockets.length + s.mainProcess.length := by
  unfold Service.countEntries
  dsimp only
  rw [Service.foldl_countEntry, Service.foldl_countEntry,
    length_eq_countP_add (fun i => !s.haveSocket os i.id && !isBlackout),
    length_eq_countP_add (fun p : Process => !p.getStatus os && !isBlackout) s.mainProcess]
  dsimp only
  omega

/-- The home page and the status document agree, for any handlers. Where the handler is asked and
throws both throw. Otherwise both return and show the same service: the page counts as failed as
many entries as the document reports so, which are those that fail and are not excused, and its
counts add up to the number of entries. -/
theorem counts_eq_reported (handlers : Handlers) (s : Service) :
    (HandlerThrows os handlers s ∧
      s.getIndexCounts handlers os = none ∧ s.getJsonStatusOf handlers os = none) ∨
    ∃ s' isBlackout c t doc, GoesOnWith os handlers s (s', isBlackout) ∧
      s.getIndexCounts handlers os = some (s', c) ∧
      s.getJsonStatusOf handlers os = some (t, doc) ∧
      c.failed = reportedFailed doc ∧
      c.failed = (if isBlackout then 0 else failures os s') ∧
      c.ok + c.failed = doc.sockets.length + doc.process.length ∧
      doc.sockets.length = s'.sockets.length ∧ doc.process.length = s'.mainProcess.length := by
  rw [Service.getIndexCounts_eq, Service.getJsonStatusOf_eq]
  rcases askHandlerOf_cases os handlers s with ⟨hthrows, hask⟩ | ⟨⟨s', isBlackout⟩, hgoes, hask⟩
  · rw [hask]
    exact .inl ⟨hthrows, rfl, rfl⟩
  · rw [hask, Option.map_some, Option.map_some]
    have hsockets : (s'.writeStatus os isBlackout).2.sockets.length = s'.sockets.length :=
      List.length_map _
    have hprocess : (s'.writeStatus os isBlackout).2.process.length = s'.mainProcess.length :=
      List.length_map _
    refine .inr ⟨s', isBlackout, s'.countEntries os isBlackout,
      (s'.writeStatus os isBlackout).1, (s'.writeStatus os isBlackout).2, hgoes, rfl, rfl, ?_,
      failed_countEntries os s' isBlackout, ?_, hsockets, hprocess⟩
    · rw [failed_countEntries, reportedFailed_writeStatus]
    · rw [ok_add_failed_countEntries, hsockets, hprocess]

/-- A system with a web server 10 and its child 12. -/
def webServerWithChild : OsState :=
  OsState.ofProcs [(10, { exe := some "/usr/sbin/httpd" }),
    (12, { exe := some "/usr/sbin/httpd", cwd := some "/", status := ["Uid: 33"] })]

/-- A service whose main process 11 has ended. -/
def mainEnded : Service where
  name := "httpd"
  handler := some (.lua "httpd.lua")
  mainProcess := [{ pid := 11 }]

/-- A handler that finds the main process 12, and excuses nothing. -/
def findsTwelve : Handlers := fun _ _ s =>
  some ({ s with mainProcess := s.mainProcess ++ [{ pid := 12 }] }, false)

/-- With this handler one of two entries fails on both sides. -/
theorem counts_eq_reported_mainEnded :
    ∃ s' c t doc, mainEnded.getIndexCounts findsTwelve webServerWithChild = some (s', c) ∧
      mainEnded.getJsonStatusOf findsTwelve webServerWithChild = some (t, doc) ∧
      c.failed = 1 ∧ reportedFailed doc = 1 ∧ c.ok = 1 ∧ doc.process.length = 2 := by
  have hfails : Fails webServerWithChild mainEnded :=
    .inr ⟨{ pid := 11 }, List.mem_singleton_self _, by decide⟩
  rcases counts_eq_reported webServerWithChild findsTwelve mainEnded with
    ⟨⟨_, _, _, hnone⟩, _⟩ |
    ⟨s', b, c, t, doc, hgoes, hindex, hjson, hreported, hfailed, hsum, -, hlen⟩
  · exact absurd hnone (Option.some_ne_none _)
  · rcases hgoes with ⟨_, _, _, hanswer⟩ | ⟨hnone | hnot, _⟩
    · obtain ⟨rfl, rfl⟩ := Prod.mk.inj (Option.some.inj hanswer)
      have hone : c.failed = 1 := hfailed.trans (by decide)
      have htwo : doc.process.length = 2 := hlen
      have hzero : doc.sockets.length = 0 := by
        obtain ⟨-, rfl⟩ := Prod.mk.inj (Option.some.inj hjson)
        rfl
      exact ⟨_, c, t, doc, hindex, hjson, hone, hreported ▸ hone, by omega, htwo⟩
    · exact absurd hnone (Option.some_ne_none _)
    · exact absurd hfails hnot

/-! ### The subprocesses -/

/-- Without the nulls at the end only values are left, if and only if no null stands before a
value. -/
theorem rdropWhile_eq_filter_iff {α : Type} (l : List (Option α)) :
    l.rdropWhile Option.isNone = l.filter Option.isSome
      ↔ l.Pairwise (fun a b => b.isSome = true → a.isSome = true) := by
  induction l using List.reverseRecOn with
  | nil => exact ⟨fun _ => List.Pairwise.nil, fun _ => rfl⟩
  | append_singleton l a ih =>
      rw [List.rdropWhile_concat, List.filter_append, List.pairwise_append]
      cases a with
      | none =>
          -- A null at the end is dropped, and nothing is asked of what stands before it.
          show l.rdropWhile Option.isNone = l.filter Option.isSome ++ [] ↔ _
          rw [List.append_nil, ih]
          refine ⟨fun h => ⟨h, List.pairwise_singleton _ _, fun a _ b hb => ?_⟩, fun h => h.1⟩
          rw [List.mem_singleton.mp hb]
          exact fun hsome => Bool.noConfusion hsome
      | some a =>
          show l ++ [some a] = l.filter Option.isSome ++ [some a] ↔ _
          rw [List.append_left_inj, eq_comm, List.filter_eq_self]
          constructor
          · intro hall
            refine ⟨List.pairwise_of_forall_mem_list (fun b hb _ _ _ => hall b hb),
              List.pairwise_singleton _ _, fun b hb _ _ _ => hall b hb⟩
          · intro h b hb
            exact h.2.2 b hb _ (List.mem_singleton_self _) rfl

/-- No dead process stands before a live one. -/
def DeadLast (procs : List Process) : Prop :=
  procs.Pairwise (fun p q => q.getStatus os = true → p.getStatus os = true)

instance (procs : List Process) : Decidable (DeadLast os procs) :=
  inferInstanceAs (Decidable (List.Pairwise _ procs))

/-- The subprocesses that the loop meets: those of the service, after a handler that learned of a
process has added it. -/
def subProcessesMet (s : Service) : List Process :=
  match learned os s with
  | none => s.subProcess
  | some pid => (s.updateMainProcess os (Process.ofPid os pid)).subProcess

/-- The element of a live subprocess. -/
def liveSubprocess (p : Process) : SubprocessStatus where
  name := p.baseName
  fullPath := p.fullPath
  pid := p.pid
  cwd := (p.getCWD os).2
  username := (p.getUsername os).2

/-- The directory is cached apart from the user. -/
theorem getUsername_getCWD (p : Process) :
    ((p.getCWD os).1.getUsername os).2 = (p.getUsername os).2 := by
  have hcache : ∀ cwd, ({ p with cwd := cwd }.getUsername os).2 = (p.getUsername os).2 := by
    intro cwd
    unfold Process.getUsername Process.getStatus
    dsimp only
    split
    · rfl
    · cases (os.entry p.pid).bind (fun e => Process.uidOf e.status) with
      | none => rfl
      | some uid =>
          dsimp only
          cases os.passwd uid <;> rfl
  unfold Process.getCWD
  split
  · rfl
  · split
    · rfl
    · exact hcache _

/-- An element is written for a live process only. -/
theorem subprocessStatus_eq (p : Process) :
    Service.subprocessStatus os p
      = if p.getStatus os = true then some (liveSubprocess os p) else none := by
  unfold Service.subprocessStatus
  split
  · exact congrArg (fun username => some { liveSubprocess os p with username })
      (getUsername_getCWD os p)
  · rfl

theorem isSome_subprocessStatus (p : Process) :
    (Service.subprocessStatus os p).isSome = p.getStatus os := by
  rw [subprocessStatus_eq]
  cases p.getStatus os <;> rfl

/-- The elements that are written are those of the live processes. -/
theorem filter_subprocessStatus (procs : List Process) :
    (procs.map (Service.subprocessStatus os)).filter Option.isSome
      = (procs.filter (fun p => p.getStatus os)).map (fun p => some (liveSubprocess os p)) := by
  rw [List.filter_map]
  have hlive : (Option.isSome ∘ Service.subprocessStatus os) = fun p => p.getStatus os :=
    funext (isSome_subprocessStatus os)
  rw [hlive]
  refine List.map_congr_left (fun p hp => ?_)
  rw [subprocessStatus_eq, if_pos (List.mem_filter.mp hp).2]

/-- The document's elements, from the list that the loop meets. -/
theorem subprocess_of_getJsonStatus {env : Env} {s : Service} {r : Service × StatusDoc}
    (h : s.getJsonStatus env os = some r) :
    r.2.subprocess
      = ((subProcessesMet os s).map (Service.subprocessStatus os)).rdropWhile Option.isNone := by
  unfold Service.getJsonStatus at h
  obtain ⟨⟨s', isBlackout⟩, hask, hdoc⟩ := Option.bind_eq_some_iff.mp h
  obtain rfl := Option.some.inj hdoc
  have hmet : s'.subProcess = subProcessesMet os s := by
    unfold subProcessesMet
    rcases askHandler_cases env os s with ⟨hnone, hsame⟩ | ⟨pid, b, hpid, hadded⟩
    · rw [hnone, ← hsame _ hask]
    · rw [hask, Option.some_inj] at hadded
      rw [hpid, (Prod.mk.inj hadded).1]
  rw [← hmet]
  rfl

/-- The subprocess report lists exactly the live subprocesses, with their names, paths, PIDs,
directories and users and in the order of the list, if and only if no dead subprocess stands
before a live one. -/
theorem subprocess_eq_iff (env : Env) (s : Service) (r : Service × StatusDoc)
    (h : s.getJsonStatus env os = some r) :
    r.2.subprocess = ((subProcessesMet os s).filter (fun p => p.getStatus os)).map
        (fun p => some (liveSubprocess os p))
      ↔ DeadLast os (subProcessesMet os s) := by
  rw [subprocess_of_getJsonStatus os h, ← filter_subprocessStatus, rdropWhile_eq_filter_iff,
    List.pairwise_map]
  unfold DeadLast
  simp only [isSome_subprocessStatus]

/-- Its service, with a child 11 that has ended. -/
def oneChildEnded : Service where
  name := "httpd"
  mainProcess := [{ pid := 10, fullPath := "/usr/sbin/httpd", baseName := "httpd" }]
  subProcess := [{ pid := 11, fullPath := "/usr/sbin/httpd", baseName := "httpd" },
    { pid := 12, fullPath := "/usr/sbin/httpd", baseName := "httpd" }]

/-- The report has a null for the child that has ended. -/
theorem not_subprocess_eq :
    ¬ ∀ r, oneChildEnded.getJsonStatus {} webServerWithChild = some r → r.2.subprocess
      = ((subProcessesMet webServerWithChild oneChildEnded).filter
          (fun p => p.getStatus webServerWithChild)).map
            (fun p => some (liveSubprocess webServerWithChild p)) := by
  intro h
  have hlive := h _ rfl
  exact absurd hlive (by decide)

/-- A system with a web server 10 and its children 12 and 13, of which the second has a name for
its user. -/
def webServerWithChildren : OsState :=
  { OsState.ofProcs [(10, { exe := some "/usr/sbin/httpd" }),
      (12, { exe := some "/usr/sbin/httpd", cwd := some "/srv", status := ["Uid: 33"] }),
      (13, { exe := some "/usr/sbin/httpd", cwd := some "/", status := ["Uid: 0"] })] with
    passwd := fun uid => if uid = 0 then some "root" else none }

/-- The service with two children that run, and the one that has ended behind them. -/
def twoChildren : Service := { oneChildEnded with
  subProcess := [{ pid := 12, fullPath := "/usr/sbin/httpd", baseName := "httpd" },
    { pid := 13, fullPath := "/usr/sbin/httpd", baseName := "httpd" }, { pid := 11 }] }

/-- The report on the two children that run. -/
theorem subprocess_eq_iff_two :
    ∃ r, twoChildren.getJsonStatus {} webServerWithChildren = some r ∧ r.2.subprocess
      = [some ⟨"httpd", "/usr/sbin/httpd", 12, "/srv", "33"⟩,
        some ⟨"httpd", "/usr/sbin/httpd", 13, "/", "root"⟩] := by
  obtain ⟨r, hr⟩ : ∃ r, twoChildren.getJsonStatus {} webServerWithChildren = some r := ⟨_, rfl⟩
  have hiff := subprocess_eq_iff webServerWithChildren {} twoChildren r hr
  refine ⟨r, hr, ?_⟩
  rw [hiff.mpr (by decide)]
  decide

end StatusReports

end WatchedAgent.Proofs
