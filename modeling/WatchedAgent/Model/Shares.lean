import WatchedAgent.Model.Status
import WatchedAgent.Model.SystemCollectors

/-!
# `WatchedAgent.Model.Shares`: the shares that a service shows

`ServCpuCollector::collect` divides by the time that has passed, and `service::getIndexHtml` by
the number of things that can fail. A quotient is `none` where the double is infinite or not a
number.

`shares` are the quotients of a pass on their own; `ServCpuCollector.collect` puts them into its
sample (`collect_eq_readFiles`, `lookup_publish_eq`).
-/

set_option autoImplicit false

namespace WatchedAgent.Model

open WatchedAgent.Lib

/-! ### Processor time of a service -/

namespace ServCpuCollector

/-- What a pass reads, before it makes a sample. -/
def readFiles (c : ServCpuCollector) (pass : ProcPass) : Option (ServCpuCollector × CpuLocals) :=
  let l := (linesOf pass.cpuStat).foldl readCpuLine {}
  let l := if l.cpuCount = 0 then { l with cpuCount := 1 } else l
  pass.pids.foldlM (readProcess pass.files) (c, l)

/-- The properties of the ressource `stat`. -/
def shares (c : ServCpuCollector) (l : CpuLocals) : Published :=
  let p := quotient (mulUInt32 100 l.cpuCount) (subUInt64 l.totalTime c.prevTotalTime)
  [("user", p.map ((l.resUsers : ℚ) * ·)),
    ("system", p.map ((l.resSys : ℚ) * ·)),
    ("pct", p.map ((addUInt32 l.resSys l.resUsers : ℚ) * ·)),
    ("cuser", p.map ((l.resCusers : ℚ) * ·)),
    ("csystem", p.map ((l.resCsys : ℚ) * ·))]

/-- What a pass sets there: nothing in the first pass. -/
def published (c : ServCpuCollector) (pass : ProcPass) : Option Published :=
  (c.readFiles pass).map (fun r => if r.1.prevTotalTime ≠ 0 then shares r.1 r.2 else [])

/-- A pass reads the files, and makes its samples from the quotients. -/
theorem collect_eq_readFiles (c : ServCpuCollector) (pass : ProcPass) :
    c.collect pass = (c.readFiles pass).map (fun r => if r.1.prevTotalTime ≠ 0
      then ({ r.1.publish r.2 with prevTotalTime := r.2.totalTime }, true)
      else ({ r.1 with prevTotalTime := r.2.totalTime }, false)) := by
  unfold collect readFiles
  dsimp only
  cases pass.pids.foldlM (readProcess pass.files) _ with
  | none => rfl
  | some r =>
      rw [Option.bind_eq_bind, Option.bind_some, Option.map_some]
      split <;> rfl

/-- The sample gets the quotients. -/
theorem lookup_publish_eq (c : ServCpuCollector) (l : CpuLocals) :
    ∀ e ∈ shares c l, (c.publish l).stat.lookup e.1 = some e.2 := by
  unfold shares publish mulUInt32
  simp only [List.forall_mem_cons]
  simp [MembersOf.lookup_setProperty]

end ServCpuCollector

/-! ### The index page -/

/-- The bar of a service on the index page: its link and title, and the widths of its green and
its red part in percent. -/
structure IndexBar where
  href : String
  title : String
  pctOk : Option ℚ
  pctFail : Option ℚ

namespace Service

/-- Does a socket count as failed? -/
def socketFails (os : OsState) (s : Service) (isBlackout : Bool) (i : Socket) : Bool :=
  !s.haveSocket os i.id && !isBlackout

/-- Does a main process count as failed? -/
def processFails (os : OsState) (isBlackout : Bool) (p : Process) : Bool :=
  !p.getStatus os && !isBlackout

/-- `service::getIndexHtml`: the service afterwards, and its bar without the markup. The counts
are taken to fit an `int`. -/
def getIndexHtml (env : Env) (os : OsState) (s : Service) : Option (Service × IndexBar) := do
  let (s, isBlackout) ← s.askHandler env os
  let failed := s.sockets.countP (s.socketFails os isBlackout)
    + s.mainProcess.countP (processFails os isBlackout)
  let ok := s.sockets.countP (fun i => !s.socketFails os isBlackout i)
    + s.mainProcess.countP (fun p => !processFails os isBlackout p)
  return (s, {
    href := "/service/" ++ s.getID ++ "/html"
    title := s.name ++ " - " ++ s.uniqName
    pctOk := quotient (100 * ok) (ok + failed)
    pctFail := quotient (100 * failed) (ok + failed) })

end Service

end WatchedAgent.Model
