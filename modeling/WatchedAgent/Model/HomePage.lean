import WatchedAgent.Model.Shares

/-!
# `WatchedAgent.Model.HomePage`: the counts of the home page

`service::getIndexHtml` and `service::getJsonStatus` each have a copy of the loops that decide
whether the handler is asked, and each copy is written out here. In the first one the variable
`failed` of these loops hides the counter of the same name. Both functions take what the
handlers do as a parameter: `handlers h` is the function `isBlackout` of the handler `h`, which
may change the service and may throw. `getIndexHtml_eq` and `getJsonStatus_eq` are the functions
with the handlers of the agent.
-/

set_option autoImplicit false

namespace WatchedAgent.Model

/-- What the handlers answer, and the service afterwards. `none` is an exception. -/
abbrev Handlers := Handler → OsState → Service → Option (Service × Bool)

/-- The handlers of the agent. -/
def agentHandlers (env : Env) : Handlers := fun h os s => h.isBlackout env os s

/-- The local variables of `getIndexHtml`. -/
structure IndexCounts where
  ok : Nat := 0
  failed : Nat := 0
  deriving DecidableEq

/-- A `for` loop with a test on its variable: it ends where the test is false. -/
def forWhile {α β : Type} (test : β → Bool) (body : α → β → β) : List α → β → β
  | [], b => b
  | a :: l, b => if test b then forWhile test body l (body a b) else b

/-- A loop that stops at the first failure finds whether there is one. -/
theorem forWhile_failed {α : Type} (fails : α → Bool) (l : List α) (failed : Bool) :
    forWhile (fun failed => !failed) (fun a failed => if fails a then true else failed) l failed
      = (failed || l.any fails) := by
  induction l generalizing failed with
  | nil => rw [forWhile, List.any_nil, Bool.or_false]
  | cons a l ih =>
      rw [forWhile, ih, List.any_cons]
      cases failed <;> cases fails a <;> rfl

namespace Service

/-- A turn of the loops of `getIndexHtml`. -/
def countEntry (works isBlackout : Bool) (c : IndexCounts) : IndexCounts :=
  if !works && !isBlackout then { c with failed := c.failed + 1 } else { c with ok := c.ok + 1 }

/-- The two loops of `getIndexHtml`. -/
def countEntries (os : OsState) (s : Service) (isBlackout : Bool) : IndexCounts :=
  let c := s.sockets.foldl (fun c i => countEntry (s.haveSocket os i.id) isBlackout c) {}
  s.mainProcess.foldl (fun c p => countEntry (p.getStatus os) isBlackout c) c

/-- `service::getIndexHtml` up to the widths: the service afterwards, and the counts. -/
def getIndexCounts (handlers : Handlers) (os : OsState) (s : Service) :
    Option (Service × IndexCounts) := do
  let asked : Option (Service × Bool) := match s.handler with
    | none => some (s, false)
    | some handler =>
        -- This `failed` is the inner one, which hides the counter.
        let failed := forWhile (fun failed => !failed)
          (fun i failed => if !s.haveSocket os i.id then true else failed) s.sockets false
        let failed := forWhile (fun failed => !failed)
          (fun i failed => if !i.getStatus os then true else failed) s.mainProcess failed
        if failed then handlers handler os s else some (s, false)
  let (s, isBlackout) ← asked
  return (s, s.countEntries os isBlackout)

/-- The loops of `getJsonStatus` that write the document. -/
def writeStatus (os : OsState) (s : Service) (isBlackout : Bool) : Service × StatusDoc :=
  let doc : StatusDoc := {
    sockets := s.sockets.map (s.socketStatus os isBlackout)
    process := s.mainProcess.map (processStatus os isBlackout)
    subprocess := (s.subProcess.map (subprocessStatus os)).reverse.dropWhile Option.isNone
      |>.reverse
    host := s.host
    name := s.name
    type := s.type
    subType := s.subType
    uniqName := s.uniqName }
  ({ s with
    mainProcess := s.mainProcess.map (cacheNames os)
    subProcess := s.subProcess.map (cacheNames os) }, doc)

/-- `service::getJsonStatus` on an empty object. -/
def getJsonStatusOf (handlers : Handlers) (os : OsState) (s : Service) :
    Option (Service × StatusDoc) := do
  let asked : Option (Service × Bool) := match s.handler with
    | none => some (s, false)
    | some handler =>
        let failed := forWhile (fun failed => !failed)
          (fun i failed => if !s.haveSocket os i.id then true else failed) s.sockets false
        let failed := forWhile (fun failed => !failed)
          (fun i failed => if !i.getStatus os then true else failed) s.mainProcess failed
        if failed then handlers handler os s else some (s, false)
  let (s, isBlackout) ← asked
  return s.writeStatus os isBlackout

/-- What the functions go on with: the answer of the handler, which is asked when something
fails. -/
def askHandlerOf (handlers : Handlers) (os : OsState) (s : Service) : Option (Service × Bool) :=
  match s.handler with
  | none => some (s, false)
  | some handler => if s.failed os then handlers handler os s else some (s, false)

/-- The two loops find whether something fails. -/
theorem loops_eq_failed (os : OsState) (s : Service) :
    forWhile (fun failed => !failed) (fun i failed => if !i.getStatus os then true else failed)
        s.mainProcess (forWhile (fun failed => !failed)
          (fun i failed => if !s.haveSocket os i.id then true else failed) s.sockets false)
      = s.failed os := by
  rw [forWhile_failed (fun i : Socket => !s.haveSocket os i.id), Bool.false_or,
    forWhile_failed (fun i : Process => !i.getStatus os)]
  rfl

theorem getIndexCounts_eq (handlers : Handlers) (os : OsState) (s : Service) :
    s.getIndexCounts handlers os
      = (s.askHandlerOf handlers os).map (fun r => (r.1, r.1.countEntries os r.2)) := by
  unfold getIndexCounts askHandlerOf
  cases s.handler with
  | none => rfl
  | some handler =>
      dsimp only
      rw [loops_eq_failed, Option.map_eq_bind]
      rfl

theorem getJsonStatusOf_eq (handlers : Handlers) (os : OsState) (s : Service) :
    s.getJsonStatusOf handlers os
      = (s.askHandlerOf handlers os).map (fun r => r.1.writeStatus os r.2) := by
  unfold getJsonStatusOf askHandlerOf
  cases s.handler with
  | none => rfl
  | some handler =>
      dsimp only
      rw [loops_eq_failed, Option.map_eq_bind]
      rfl

/-- The counts after one loop: how many entries fail, and how many do not. -/
theorem foldl_countEntry {α : Type} (works : α → Bool) (isBlackout : Bool) (l : List α)
    (c : IndexCounts) :
    l.foldl (fun c a => countEntry (works a) isBlackout c) c
      = { ok := c.ok + l.countP (fun a => !(!works a && !isBlackout))
          failed := c.failed + l.countP (fun a => !works a && !isBlackout) } := by
  induction l generalizing c with
  | nil => rfl
  | cons a l ih =>
      rw [List.foldl_cons, ih, List.countP_cons, List.countP_cons]
      unfold countEntry
      cases (!works a && !isBlackout) with
      | true =>
          simp only [if_true, Bool.not_true, Bool.false_eq_true, if_false, IndexCounts.mk.injEq]
          omega
      | false =>
          simp only [if_true, Bool.not_false, Bool.false_eq_true, if_false, IndexCounts.mk.injEq]
          omega

theorem askHandlerOf_agentHandlers (env : Env) (os : OsState) (s : Service) :
    s.askHandlerOf (agentHandlers env) os = s.askHandler env os := rfl

/-- The bar of the home page comes from the counts. -/
theorem getIndexHtml_eq (env : Env) (os : OsState) (s : Service) :
    s.getIndexHtml env os = (s.getIndexCounts (agentHandlers env) os).map (fun r => (r.1, {
      href := "/service/" ++ r.1.getID ++ "/html"
      title := r.1.name ++ " - " ++ r.1.uniqName
      pctOk := quotient (100 * r.2.ok) (r.2.ok + r.2.failed)
      pctFail := quotient (100 * r.2.failed) (r.2.ok + r.2.failed) })) := by
  rw [getIndexCounts_eq, askHandlerOf_agentHandlers]
  unfold getIndexHtml
  cases s.askHandler env os with
  | none => rfl
  | some r =>
      rw [Option.bind_eq_bind, Option.bind_some, Option.map_some, Option.map_some]
      unfold countEntries
      dsimp only
      rw [foldl_countEntry, foldl_countEntry]
      simp only [Option.pure_def, Nat.zero_add, Nat.cast_add]
      rfl

theorem getJsonStatus_eq (env : Env) (os : OsState) (s : Service) :
    s.getJsonStatus env os = s.getJsonStatusOf (agentHandlers env) os := by
  rw [getJsonStatusOf_eq, askHandlerOf_agentHandlers, Option.map_eq_bind]
  rfl

end Service

end WatchedAgent.Model
