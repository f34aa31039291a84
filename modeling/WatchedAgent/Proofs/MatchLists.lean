import WatchedAgent.Model.SocketDetector
import WatchedAgent.Model.Systemd

/-!
# `WatchedAgent.Proofs.MatchLists`: the criteria of a list entry

An entry of a white or black list has some of the criteria its detector knows. `matchList`
keeps one flag for the entry, and each criterion writes the flag anew, so the last one in
the order of the code decides alone.

* `matchList_iff`, `systemdMatchList_iff`: a list matches exactly when the last criterion
  of some entry holds.
* `conjunctive_iff`: the list is read as a conjunction of criteria for each entry exactly
  when an entry that overrides a failed criterion comes with one that is satisfied.
* `not_conjunctive_default`: the black list the systemd detector is shipped with.
-/

set_option autoImplicit false

namespace WatchedAgent.Proofs

open WatchedAgent.Lib
open WatchedAgent.Model

namespace MatchLists

/-! ### The criteria of an entry -/

/-- The criteria that an entry of the systemd detector has, in the order of the code, and
whether each holds for the unit. -/
def unitCriteria (env : Env) (small type restart : String) (rule : UnitRule) : List Bool :=
  (rule.unitName.map (fun pattern => env.regexMatch pattern small)).toList
    ++ (rule.type.map (fun t => type == t)).toList
    ++ (rule.restart.map (fun r => restart == r)).toList

/-- The criteria that an entry of the socket detector has, and whether each holds for the
process. -/
def socketCriteria (p : Process) (rule : SocketRule) : List Bool :=
  (rule.path.map (fun path => p.fullPath == path)).toList
    ++ (rule.name.map (fun name => p.baseName == name)).toList

/-- An entry with at least one criterion, all of which hold. -/
def Satisfied (criteria : List Bool) : Prop := criteria ≠ [] ∧ ∀ c ∈ criteria, c = true

/-- An entry whose last criterion holds, while an earlier one does not. -/
def Overridden (criteria : List Bool) : Prop := criteria.getLast? = some true ∧ false ∈ criteria

instance (criteria : List Bool) : Decidable (Satisfied criteria) :=
  inferInstanceAs (Decidable (criteria ≠ [] ∧ ∀ c ∈ criteria, c = true))

instance (criteria : List Bool) : Decidable (Overridden criteria) :=
  inferInstanceAs (Decidable (criteria.getLast? = some true ∧ false ∈ criteria))

/-- A satisfied entry is one whose last criterion holds and that overrides nothing. -/
theorem satisfied_iff (criteria : List Bool) :
    Satisfied criteria ↔ criteria.getLast? = some true ∧ ¬ Overridden criteria := by
  constructor
  · rintro ⟨hne, hall⟩
    have hlast : criteria.getLast? = some true := by
      rw [List.getLast?_eq_some_getLast hne, hall _ (List.getLast_mem hne)]
    exact ⟨hlast, fun h => Bool.false_ne_true (hall false h.2)⟩
  · rintro ⟨hlast, hover⟩
    have hfalse : false ∉ criteria := fun h => hover ⟨hlast, h⟩
    refine ⟨fun hnil => by simp [hnil] at hlast, fun c hc => ?_⟩
    cases c with
    | true => rfl
    | false => exact absurd hc hfalse

/-- One more criterion decides where the entry has it. -/
theorem getLast?_append_toList (criteria : List Bool) (c : Option Bool) :
    (criteria ++ c.toList).getLast? = c.or criteria.getLast? := by
  cases c with
  | none => simp
  | some b => simp

/-- The flag of an entry of the socket detector is its last criterion. -/
theorem matches_iff (p : Process) (rule : SocketRule) :
    rule.matches p = true ↔ (socketCriteria p rule).getLast? = some true := by
  rw [socketCriteria, getLast?_append_toList, SocketRule.matches]
  cases rule.name with
  | some name => simp
  | none => cases rule.path <;> simp

/-- The flag of an entry of the systemd detector is its last criterion. -/
theorem ruleMatches_iff (env : Env) (small type restart : String) (rule : UnitRule) :
    SystemdDetector.ruleMatches env small type restart rule = true
      ↔ (unitCriteria env small type restart rule).getLast? = some true := by
  rw [unitCriteria, getLast?_append_toList, getLast?_append_toList, SystemdDetector.ruleMatches]
  cases rule.restart with
  | some r => simp
  | none =>
      cases rule.type with
      | some t => simp
      | none => cases rule.unitName <;> simp

/-! ### The lists -/

/-- A list that matches where the last criterion of an entry holds is read as a conjunction
exactly when an entry that overrides a failed criterion comes with a satisfied one. -/
theorem conjunctive_iff {α : Type} (criteria : α → List Bool) (rules : List α) {matched : Prop}
    (h : matched ↔ ∃ rule ∈ rules, (criteria rule).getLast? = some true) :
    (matched ↔ ∃ rule ∈ rules, Satisfied (criteria rule))
      ↔ ((∃ rule ∈ rules, Overridden (criteria rule))
          → ∃ rule ∈ rules, Satisfied (criteria rule)) := by
  have hsat : (∃ rule ∈ rules, Satisfied (criteria rule)) → matched := by
    rintro ⟨rule, hrule, hall⟩
    exact h.mpr ⟨rule, hrule, ((satisfied_iff _).mp hall).1⟩
  constructor
  · rintro hiff ⟨rule, hrule, hover⟩
    exact hiff.mp (h.mpr ⟨rule, hrule, hover.1⟩)
  · intro hover
    refine ⟨fun hmatch => ?_, hsat⟩
    -- The entry that matched is satisfied, or it overrides a criterion that failed.
    obtain ⟨rule, hrule, hlast⟩ := h.mp hmatch
    by_cases hrover : Overridden (criteria rule)
    · exact hover ⟨rule, hrule, hrover⟩
    · exact ⟨rule, hrule, (satisfied_iff _).mpr ⟨hlast, hrover⟩⟩

/-- The socket detector's list matches where the last criterion of an entry holds. -/
theorem matchList_iff (p : Process) (rules : List SocketRule) :
    matchList p rules = true ↔ ∃ rule ∈ rules, (socketCriteria p rule).getLast? = some true := by
  rw [matchList, List.any_eq_true]
  exact exists_congr fun rule => and_congr_right fun _ => matches_iff p rule

/-- The systemd detector's list matches where the last criterion of an entry holds. -/
theorem systemdMatchList_iff (env : Env) (os : OsState) {small type restart : String}
    (htype : os.bus.type (SystemdDetector.objectPath small) = some type)
    (hrestart : os.bus.restart (SystemdDetector.objectPath small) = some restart)
    (rules : List UnitRule) : SystemdDetector.matchList env os small rules = some true
      ↔ ∃ rule ∈ rules, (unitCriteria env small type restart rule).getLast? = some true := by
  rw [SystemdDetector.matchList, htype, hrestart]
  show some (rules.any _) = some true ↔ _
  rw [Option.some.injEq, List.any_eq_true]
  exact exists_congr fun rule => and_congr_right fun _ =>
    ruleMatches_iff env small type restart rule

/-- Each of the two functions reads its list as a conjunction of criteria for each entry, if
and only if an entry that overrides a failed criterion comes with one that is satisfied. -/
theorem matchLists_conjunctive_iff (env : Env) (os : OsState) (small type restart : String)
    (htype : os.bus.type (SystemdDetector.objectPath small) = some type)
    (hrestart : os.bus.restart (SystemdDetector.objectPath small) = some restart)
    (unitRules : List UnitRule) (p : Process) (socketRules : List SocketRule) :
    ((SystemdDetector.matchList env os small unitRules = some true
          ↔ ∃ rule ∈ unitRules, Satisfied (unitCriteria env small type restart rule))
        ↔ ((∃ rule ∈ unitRules, Overridden (unitCriteria env small type restart rule))
            → ∃ rule ∈ unitRules, Satisfied (unitCriteria env small type restart rule)))
      ∧ ((matchList p socketRules = true ↔ ∃ rule ∈ socketRules, Satisfied (socketCriteria p rule))
        ↔ ((∃ rule ∈ socketRules, Overridden (socketCriteria p rule))
            → ∃ rule ∈ socketRules, Satisfied (socketCriteria p rule))) :=
  ⟨conjunctive_iff _ _ (systemdMatchList_iff env os htype hrestart unitRules),
    conjunctive_iff _ _ (matchList_iff p socketRules)⟩

/-! ### The lists the agent is shipped with -/

/-- The expressions of the default lists: one has a `.*`, and the others are texts. -/
def defaultMatch (pattern text : String) : Bool :=
  if pattern = "systemd_2d.*_2eservice" then
    "systemd_2d".toList.isPrefixOf text.toList && "_2eservice".toList.isSuffixOf text.toList
  else pattern == text

/-- The agent, with the expressions of the default lists. -/
def cronEnv : Env where
  regexMatch := defaultMatch

/-- A system with units of type `simple` that systemd does not restart. -/
def cronOs : OsState where
  bus := {
    haveBus := true
    type := fun _ => some "simple"
    restart := fun _ => some "no" }

/-- The default white list is read as a conjunction for the unit `cron`, and so is the
default black list of the socket detector for a process of `cups-browsed`. -/
theorem matchLists_conjunctive_cron :
    (SystemdDetector.matchList cronEnv cronOs "cron_2eservice" SystemdDetector.defaultWhiteList
          = some true
        ↔ ∃ rule ∈ SystemdDetector.defaultWhiteList,
            Satisfied (unitCriteria cronEnv "cron_2eservice" "simple" "no" rule))
      ∧ (matchList { pid := 10, baseName := "cups-browsed" } SocketDetector.defaultBlackList = true
        ↔ ∃ rule ∈ SocketDetector.defaultBlackList,
            Satisfied (socketCriteria { pid := 10, baseName := "cups-browsed" } rule)) := by
  have h := matchLists_conjunctive_iff cronEnv cronOs "cron_2eservice" "simple" "no" rfl rfl
    SystemdDetector.defaultWhiteList { pid := 10, baseName := "cups-browsed" }
    SocketDetector.defaultBlackList
  exact ⟨h.1.mpr (by decide), h.2.mpr (by decide)⟩

/-- The default black list refuses every unit that systemd does not restart: its first entry
asks for the type `dbus` and for the restart policy `no`, and the policy alone decides. -/
theorem not_conjunctive_default :
    ¬ (SystemdDetector.matchList cronEnv cronOs "cron_2eservice"
          SystemdDetector.defaultBlackList = some true
        ↔ ∃ rule ∈ SystemdDetector.defaultBlackList,
            Satisfied (unitCriteria cronEnv "cron_2eservice" "simple" "no" rule)) := by
  decide

end MatchLists

end WatchedAgent.Proofs
