import WatchedAgent.Model.Making

/-!
# `WatchedAgent.Proofs.Registered`: what the factories are asked for

`Consistent` says that the two tables are as they were filled, and that each function was called
as it is registered, with its file. `addCollector` keeps it (`consistent_addCollector`).
`setHandler` takes the function from `handlerFactory` and the file from
`serviceCollectorFactory`, so it keeps it only where both tables have the name with one file
(`SharedFile`).

`always_consistent_iff`: a run is consistent throughout if and only if each of its `setHandler`
calls is of that kind. `not_always_consistent` is the handler `systemd`, which the table of the
collectors does not have.
-/

set_option autoImplicit false

namespace WatchedAgent.Proofs

open WatchedAgent.Lib
open WatchedAgent.Lib.Run (Always Meets)
open WatchedAgent.Model

namespace Registered

open WatchedAgent.Model.Making

variable {C H : Type} (handlers : Factory H) (collectorMakers : Factory C)

/-- The call is that of a function as it is registered. -/
def AsRegistered : Made C H → Prop
  | .collector p_name maker file =>
      maker.isSome = true ∧ collectorMakers.val.lookup p_name = some ⟨maker, file⟩
  | .handler p_name maker file =>
      maker.isSome = true ∧ handlers.val.lookup p_name = some ⟨maker, file⟩

/-- The tables are unchanged, and each call was that of a registered function. -/
structure Consistent (s : State C H) : Prop where
  handlers_eq : s.handlerFactory = handlers.val
  collectors_eq : s.serviceCollectorFactory = collectorMakers.val
  made : ∀ m ∈ s.made, AsRegistered handlers collectorMakers m

/-- A handler that is set has its name in the table of the collectors, with the same file. -/
def SharedFile (s : State C H) : FactoryCall → Prop
  | .setHandler i p_name => p_name ∉ s.collectors i →
      ∀ e, s.handlerFactory.lookup p_name = some e →
        ∃ e', s.serviceCollectorFactory.lookup p_name = some e' ∧ e'.second = e.second
  | .addCollector _ _ _ => True

/-- One more call that is registered. -/
theorem made_append {made : List (Made C H)} {m : Made C H}
    (h : ∀ m ∈ made, AsRegistered handlers collectorMakers m)
    (hm : AsRegistered handlers collectorMakers m) :
    ∀ n ∈ made ++ [m], AsRegistered handlers collectorMakers n := by
  intro n hn
  rcases List.mem_append.mp hn with hn | hn
  · exact h n hn
  · rw [List.mem_singleton.mp hn]
    exact hm

variable {handlers collectorMakers}

theorem consistent_addCollector {s : State C H} (h : Consistent handlers collectorMakers s)
    (hgone : s.gone = false) (i : Nat) (p_name : String) (kept : Bool) :
    Consistent handlers collectorMakers (addCollector s i p_name kept) ∧
      (addCollector s i p_name kept).gone = false := by
  unfold addCollector
  split
  · exact ⟨h, hgone⟩
  · split
    · exact ⟨h, hgone⟩
    · rename_i hfound
      obtain ⟨e, he⟩ := Option.ne_none_iff_exists'.mp hfound
      rw [Table.index_of_some he]
      dsimp only
      rw [Table.index_of_some he]
      dsimp only
      rw [h.collectors_eq] at he
      have hfirst := collectorMakers.property p_name e he
      refine ⟨⟨h.handlers_eq, h.collectors_eq, made_append _ _ h.made ⟨hfirst, he⟩⟩, ?_⟩
      rw [Option.isNone_eq_false_iff]
      exact hfirst

theorem consistent_setHandler {s : State C H} (h : Consistent handlers collectorMakers s)
    (hgone : s.gone = false) {i : Nat} {p_name : String}
    (hshared : SharedFile s (.setHandler i p_name)) :
    Consistent handlers collectorMakers (setHandler s i p_name) ∧
      (setHandler s i p_name).gone = false := by
  unfold setHandler
  split
  · exact ⟨h, hgone⟩
  · rename_i hnew
    split
    · exact ⟨h, hgone⟩
    · rename_i hfound
      obtain ⟨e, he⟩ := Option.ne_none_iff_exists'.mp hfound
      obtain ⟨e', he', hfile⟩ := hshared hnew e he
      rw [Table.index_of_some he, Table.index_of_some he']
      dsimp only
      rw [h.handlers_eq] at he
      have hfirst := handlers.property p_name e he
      refine ⟨⟨h.handlers_eq, h.collectors_eq, made_append _ _ h.made ⟨hfirst, ?_⟩⟩, ?_⟩
      · rw [hfile]
        exact he
      · rw [Option.isNone_eq_false_iff]
        exact hfirst

/-- A handler without a file of its own in the table of the collectors breaks the tables or is
given another file. -/
theorem not_consistent_setHandler {s : State C H} (h : Consistent handlers collectorMakers s)
    {i : Nat} {p_name : String} (hshared : ¬ SharedFile s (.setHandler i p_name)) :
    ¬ Consistent handlers collectorMakers (setHandler s i p_name) := by
  unfold SharedFile at hshared
  rw [Classical.not_imp, not_forall] at hshared
  obtain ⟨hnew, e, hshared⟩ := hshared
  rw [Classical.not_imp] at hshared
  obtain ⟨he, hshared⟩ := hshared
  unfold setHandler
  rw [if_neg hnew, if_neg (by rw [he]; exact Option.some_ne_none e), Table.index_of_some he]
  dsimp only
  intro hafter
  cases hlookup : s.serviceCollectorFactory.lookup p_name with
  | none =>
      -- The entry that `operator[]` inserted is not registered.
      have hsame : (s.serviceCollectorFactory.index p_name).1 = collectorMakers.val :=
        hafter.collectors_eq
      have hinserted := Table.lookup_index_of_none hlookup
      rw [hsame, ← h.collectors_eq, hlookup] at hinserted
      exact Option.some_ne_none _ hinserted.symm
  | some e' =>
      have hlast := hafter.made _ (List.mem_append_right _ (List.mem_singleton_self _))
      rw [Table.index_of_some hlookup] at hlast
      have hentry := hlast.2
      rw [← h.handlers_eq, he, Option.some_inj] at hentry
      exact hshared ⟨e', hlookup, (congrArg Entry.second hentry).symm⟩

/-- In a run the factories stay consistent, if and only if every `setHandler` that reaches a
registered name finds it in the table of the collectors with the same file. -/
theorem always_consistent_iff (handlers : Factory H) (collectorMakers : Factory C)
    (collectors : Nat → List String) (calls : List FactoryCall) :
    Always step (Consistent handlers collectorMakers) (start handlers collectorMakers collectors)
        calls
      ↔ Meets step SharedFile (start handlers collectorMakers collectors) calls := by
  refine Run.always_iff_meets
    (I := fun s => Consistent handlers collectorMakers s ∧ s.gone = false)
    (fun s h => h.1) (fun s c h hc => ?_) (fun s c h hc => ?_) _ calls
    ⟨⟨rfl, rfl, fun m hm => absurd hm List.not_mem_nil⟩, rfl⟩
  · unfold step
    rw [if_neg (by rw [h.2]; exact Bool.false_ne_true)]
    cases c with
    | addCollector i p_name kept => exact consistent_addCollector h.1 h.2 i p_name kept
    | setHandler i p_name => exact consistent_setHandler h.1 h.2 hc
  · unfold step
    rw [if_neg (by rw [h.2]; exact Bool.false_ne_true)]
    cases c with
    | addCollector i p_name kept => exact absurd trivial hc
    | setHandler i p_name => exact not_consistent_setHandler h.1 hc

/-- The table of the handlers as the plugins fill it. -/
def systemdOnly : Factory Unit :=
  ⟨[("systemd", { first := some () })], Table.filled_of_forall (by decide)⟩

/-- Setting the handler `systemd` leaves a null pointer in the table of the collectors, which a
collector of that name calls then. -/
theorem not_always_consistent :
    ¬ Always step (Consistent systemdOnly (⟨[], Table.filled_of_forall (by decide)⟩ : Factory Unit))
      (start systemdOnly ⟨[], Table.filled_of_forall (by decide)⟩ (fun _ => []))
      [.setHandler 0 "systemd", .addCollector 0 "systemd" true] := by
  intro h
  have hlast := h.2.2.made (.collector "systemd" none "") (by decide)
  exact absurd hlast.1 (by decide)

end Registered

end WatchedAgent.Proofs
