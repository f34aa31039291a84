import WatchedAgent.Lib.Fallible
import WatchedAgent.Model.Main
import WatchedAgent.Proofs.ConfigFile

/-!
# `WatchedAgent.Proofs.SecondStart`: the configuration that a start saves

`run_spec` says once what a step of the start does: it leaves the document alone, or it sets the
member at its own path. All steps but two set only what is not there (`Gentle`). The two are the
block for `threads` and the level of the log.

A step is `Settled` when it has nothing to change any more. It settles itself, and the later ones
leave it settled, since no step writes below a value that is read (`Leaf`).

* `second_start`: a start from the saved file finds the same plugins and saves the same file.
* `start_keeps`: what the user wrote stays, but for these two members, and every collector has its
  settings.
-/

set_option autoImplicit false

namespace WatchedAgent.Proofs.SecondStart

open WatchedAgent.Lib
open WatchedAgent.Lib.Json (Path)
open WatchedAgent.Model
open WatchedAgent.Model.Main

/-! ### One step -/

/-- The path of the member that a step sets. -/
def pathOf : Step → Path
  | .block b => [b.sec, b.key]
  | .default cfg key _ => cfg ++ [key]
  | .read cfg key _ => cfg ++ [key]
  | .level cfg => cfg ++ ["level"]

/-- The step sets only what is not there. -/
def Gentle : Step → Prop
  | .block b => b.tested = b.key
  | .default _ _ _ => True
  | .read _ _ _ => True
  | .level _ => False

/-- `if(! cfg->isMember(tested)) (*cfg)[key] = value`. -/
def fill (data : Json) (cfg : Path) (tested key : String) (value : Json) : Option Json := do
  if ← (← data.getAt cfg).isMember tested then return data else data.setAt (cfg ++ [key]) value

theorem fill_spec {data data' : Json} {cfg : Path} {tested key : String} {value : Json}
    (h : fill data cfg tested key value = some data') :
    ((data.at? (cfg ++ [tested])).isSome = true ∧ data' = data) ∨
      (data.at? (cfg ++ [tested]) = none ∧ data.setAt (cfg ++ [key]) value = some data') := by
  obtain ⟨m, hm, h⟩ := Option.bind_eq_some_iff.mp h
  obtain ⟨found, hfound, h⟩ := Option.bind_eq_some_iff.mp h
  have hat : (data.at? (cfg ++ [tested])).isSome = found := by
    rw [Json.at?_append]
    cases hcfg : data.at? cfg with
    | none =>
        -- The constructor reads `null`, which has no members.
        obtain rfl : m = .null := Json.eq_null_of_getAt hm hcfg
        exact Option.some.inj hfound
    | some m' =>
        obtain rfl : m' = m := Option.some.inj ((Json.getAt_of_at? hcfg).symm.trans hm)
        have hobj : m'.IsObjectOrNull := by
          cases m' with
          | null => trivial
          | obj ms => trivial
          | _ => simp [Json.isMember] at hfound
        rw [Json.isMember_eq hobj] at hfound
        simpa using Option.some.inj hfound
  cases found with
  | true =>
      left
      exact ⟨hat, (Option.some.inj h).symm⟩
  | false =>
      right
      exact ⟨by simpa using hat, h⟩

theorem fill_of_isSome {data : Json} {cfg : Path} {tested : String}
    (h : (data.at? (cfg ++ [tested])).isSome = true) (key : String) (value : Json) :
    fill data cfg tested key value = some data := by
  rw [Json.at?_append] at h
  obtain ⟨x, hx⟩ := Option.isSome_iff_exists.mp h
  obtain ⟨m, hm, hx⟩ := Option.bind_eq_some_iff.mp hx
  have hmember : m.isMember tested = some true := by
    rw [Json.isMember_eq (Json.isObjectOrNull_of_at? hx)]
    rw [Json.at?_cons] at hx
    obtain ⟨y, hy, -⟩ := Option.bind_eq_some_iff.mp hx
    rw [hy]
    rfl
  unfold fill
  rw [Json.getAt_of_at? hm, Option.bind_eq_bind, Option.bind_some, hmember]
  rfl

/-- A block is such a step too. -/
theorem run_block (data : Json) (b : Config.Block) :
    Step.run data (.block b) = fill data [b.sec] b.tested b.key b.value := by
  have hassign : Config.assign data b.sec b.key b.value = data.setAt ([b.sec] ++ [b.key]) b.value := by
    rw [List.singleton_append, Json.setAt_cons]
    unfold Config.assign
    cases hm : data.getD b.sec with
    | none => rfl
    | some m =>
        rw [Option.bind_eq_bind, Option.bind_some, Option.bind_some, Json.setAt_cons]
        -- Where the assignment works, the read does.
        cases hset : m.setMember b.key b.value with
        | none =>
            cases hget : m.getD b.key with
            | none => rfl
            | some m' => simp [hset]
        | some m'' =>
            have hobj : m.IsObjectOrNull := by
              cases m with
              | null => trivial
              | obj ms => trivial
              | _ => simp [Json.setMember] at hset
            rw [Json.getD_eq hobj]
            simp [hset]
  have hnot : ∀ found : Option Bool, (do return !(← found)) = found.map (fun found => !found) := by
    intro found
    cases found <;> rfl
  have hholds : b.holds data
      = (data.getAt [b.sec]).bind (fun m => (m.isMember b.tested).map (fun found => !found)) := by
    unfold Config.Block.holds
    cases data with
    | null => cases hfirst : b.first <;> rfl
    | obj ms =>
        cases hsec : ms.lookup b.sec with
        | none => cases hfirst : b.first <;> simp [Json.isMember, Json.getD, hsec]
        | some m =>
            have hread : (Json.obj ms).getAt [b.sec] = some m := by simp [Json.getD, hsec]
            rw [hread, Option.bind_some, ← hnot]
            cases hfirst : b.first <;> simp [Json.isMember, Json.getD, hsec]
    | _ => cases hfirst : b.first <;> rfl
  unfold Step.run Config.Block.run fill
  dsimp only
  rw [hholds, hassign]
  cases data.getAt [b.sec] with
  | none => rfl
  | some m =>
      cases hmember : m.isMember b.tested with
      | none => simp [hmember]
      | some found => cases found <;> simp [hmember]

/-- What a step does. -/
theorem run_spec {data data' : Json} {t : Step} (h : t.run data = some data') :
    data' = data ∨ ∃ value, data.setAt (pathOf t) value = some data' := by
  cases t with
  | block b =>
      rw [run_block] at h
      rcases fill_spec h with ⟨-, rfl⟩ | ⟨-, hset⟩
      · exact .inl rfl
      · exact .inr ⟨_, hset⟩
  | default cfg key value =>
      rcases fill_spec h with ⟨-, rfl⟩ | ⟨-, hset⟩
      · exact .inl rfl
      · exact .inr ⟨_, hset⟩
  | read cfg key ok =>
      obtain ⟨value, -, h⟩ := Option.bind_eq_some_iff.mp h
      split at h
      · exact .inr ⟨value, h⟩
      · exact absurd h (by simp)
  | level cfg =>
      obtain ⟨value, -, h⟩ := Option.bind_eq_some_iff.mp h
      obtain ⟨lvl, -, h⟩ := Option.bind_eq_some_iff.mp h
      exact .inr ⟨_, h⟩

/-- A gentle step leaves alone what is there. -/
theorem run_gentle {data data' : Json} {t : Step} (ht : Gentle t) (h : t.run data = some data')
    (hpath : (data.at? (pathOf t)).isSome = true) : data' = data := by
  cases t with
  | block b =>
      rw [run_block] at h
      have htested : b.tested = b.key := ht
      rw [fill_of_isSome (htested ▸ hpath)] at h
      exact (Option.some.inj h).symm
  | default cfg key value =>
      have hfill : fill data cfg key key value = some data' := h
      rw [fill_of_isSome hpath] at hfill
      exact (Option.some.inj hfill).symm
  | read cfg key ok =>
      obtain ⟨value, hvalue, h⟩ := Option.bind_eq_some_iff.mp h
      obtain ⟨x, hx⟩ := Option.isSome_iff_exists.mp hpath
      obtain rfl : x = value := Option.some.inj ((Json.getAt_of_at? hx).symm.trans hvalue)
      split at h
      · exact Option.some.inj (h.symm.trans (Json.setAt_of_at? hx))
      · exact absurd h (by simp)
  | level cfg => exact absurd ht id

/-- A step keeps what is at a path, if it is gentle or writes elsewhere. Only a value above its
member changes, which is an object or becomes one. -/
theorem run_keeps {data data' x : Json} {t : Step} {q : Path} (h : t.run data = some data')
    (hx : data.at? q = some x) (ht : Gentle t ∨ ¬ pathOf t <+: q) :
    (data'.at? q).isSome = true ∧
      ((q <+: pathOf t → q = pathOf t) ∨ ¬ x.IsObjectOrNull → data'.at? q = some x) := by
  have hsame : data' = data → (data'.at? q).isSome = true ∧
      ((q <+: pathOf t → q = pathOf t) ∨ ¬ x.IsObjectOrNull → data'.at? q = some x) := by
    rintro rfl
    exact ⟨by rw [hx]; rfl, fun _ => hx⟩
  rcases run_spec h with hdata | ⟨value, hset⟩
  · exact hsame hdata
  · by_cases hbelow : pathOf t <+: q
    · -- The member is there, since something is below it.
      have hpath := Json.isSome_at?_of_prefix hbelow (by rw [hx]; rfl)
      exact hsame (run_gentle (ht.resolve_right (not_not_intro hbelow)) h hpath)
    · by_cases habove : q <+: pathOf t
      · have hne : q ≠ pathOf t := fun heq => hbelow (heq ▸ List.prefix_refl q)
        refine ⟨Json.isSome_at?_setAt hset habove, fun hor => ?_⟩
        rcases hor with hleaf | hscalar
        · exact absurd (hleaf habove) hne
        · exact absurd (Json.isObjectOrNull_of_setAt hset habove hne hx) hscalar
      · rw [Json.at?_setAt_of_apart hset hbelow habove, hx]
        exact ⟨rfl, fun _ => rfl⟩

/-! ### Settled steps -/

/-- The step has nothing to change any more. -/
def Settled (data : Json) : Step → Prop
  | .block b => (data.at? [b.sec, b.tested]).isSome = true ∨ data.at? [b.sec, b.key] = some b.value
  | .default cfg key _ => (data.at? (cfg ++ [key])).isSome = true
  | .read cfg key ok => ∃ value, data.at? (cfg ++ [key]) = some value ∧ ok value = true
  | .level cfg => ∃ lvl ∈ AgentLog.levels, data.at? (cfg ++ ["level"]) = some (.str lvl)

/-- The name of a level is its own level. -/
theorem findLevel_levels : ∀ lvl ∈ AgentLog.levels,
    AgentLog.levels[AgentLog.findLevel lvl]?.getD "" = lvl := by
  decide

theorem levels_findLevel_mem (lvl : String) :
    AgentLog.levels[AgentLog.findLevel lvl]?.getD "" ∈ AgentLog.levels := by
  have hlt : AgentLog.findLevel lvl < AgentLog.levels.length := by
    unfold AgentLog.findLevel
    -- Each turn keeps the level, or takes the place of one.
    have hfold : ∀ (l : List (String × Nat)) (n : Nat), n < 7 → (∀ e ∈ l, e.2 < 7) →
        l.foldl (fun level e => if e.1 = AgentLog.toupper lvl then e.2 else level) n < 7 := by
      intro l
      induction l with
      | nil => exact fun n hn _ => hn
      | cons e l ih =>
          intro n hn hl
          refine ih _ ?_ (fun e he => hl e (List.mem_cons_of_mem _ he))
          show (if e.1 = AgentLog.toupper lvl then e.2 else n) < 7
          split
          · exact hl e List.mem_cons_self
          · exact hn
    exact hfold _ 3 (by omega) (by decide)
  rw [List.getElem?_eq_getElem hlt, Option.getD_some]
  exact List.getElem_mem hlt

theorem run_of_settled {data : Json} {s : Step} (h : Settled data s) : s.run data = some data := by
  cases s with
  | block b =>
      rw [run_block]
      rcases h with htested | hvalue
      · exact fill_of_isSome htested b.key b.value
      · by_cases htested : (data.at? ([b.sec] ++ [b.tested])).isSome = true
        · exact fill_of_isSome htested b.key b.value
        · -- The value is set to what it is.
          obtain ⟨m, hm, hkey⟩ : ∃ m, data.at? [b.sec] = some m ∧ m.at? [b.key] = some b.value := by
            have happend := Json.at?_append data [b.sec] [b.key]
            rw [List.singleton_append, hvalue] at happend
            exact Option.bind_eq_some_iff.mp happend.symm
          have hmember : m.isMember b.tested = some false := by
            rw [Json.at?_append, hm] at htested
            rw [Json.isMember_eq (Json.isObjectOrNull_of_at? hkey)]
            simpa using htested
          unfold fill
          rw [Json.getAt_of_at? hm, Option.bind_eq_bind, Option.bind_some, hmember]
          exact Json.setAt_of_at? hvalue
  | default cfg key value => exact fill_of_isSome h key value
  | read cfg key ok =>
      obtain ⟨value, hvalue, hok⟩ := h
      unfold Step.run
      dsimp only
      rw [Json.getAt_of_at? hvalue, Option.bind_eq_bind, Option.bind_some, if_pos hok]
      exact Json.setAt_of_at? hvalue
  | level cfg =>
      obtain ⟨lvl, hlvl, hvalue⟩ := h
      unfold Step.run
      dsimp only
      rw [Json.getAt_of_at? hvalue, Option.bind_eq_bind, Option.bind_some]
      show data.setAt _ (.str (AgentLog.levels[AgentLog.findLevel lvl]?.getD "")) = some data
      rw [findLevel_levels lvl hlvl]
      exact Json.setAt_of_at? hvalue

/-- A step settles itself. -/
theorem settled_run {data data' : Json} {t : Step} (h : t.run data = some data') :
    Settled data' t := by
  cases t with
  | block b =>
      rw [run_block] at h
      rcases fill_spec h with ⟨htested, rfl⟩ | ⟨-, hset⟩
      · exact .inl htested
      · exact .inr (Json.at?_setAt_self hset)
  | default cfg key value =>
      rcases fill_spec h with ⟨hkey, rfl⟩ | ⟨-, hset⟩
      · exact hkey
      · show (data'.at? _).isSome = true
        rw [Json.at?_setAt_self hset]
        rfl
  | read cfg key ok =>
      obtain ⟨value, -, h⟩ := Option.bind_eq_some_iff.mp h
      split at h
      · exact ⟨value, Json.at?_setAt_self h, ‹_›⟩
      · exact absurd h (by simp)
  | level cfg =>
      obtain ⟨value, -, h⟩ := Option.bind_eq_some_iff.mp h
      obtain ⟨lvl, -, h⟩ := Option.bind_eq_some_iff.mp h
      exact ⟨_, levels_findLevel_mem lvl, Json.at?_setAt_self h⟩

/-! ### Paths of the agent -/

/-- The member that holds the level of the log. -/
def levelPath : Path := ["log", "level"]

/-- A value that is read. -/
inductive Leaf : Path → Prop where
  | section (sec key : String) (h : sec = "server" ∨ sec = "plugins" ∨ sec = "log") : Leaf [sec, key]
  | services (key : String) (h : key ≠ "detectors") : Leaf ["services", key]
  | collector (name key : String) : Leaf ["collectors", name, key]

/-- The steps after the first one: they write no deeper than values are read, and only the level is
written over. -/
structure Later (t : Step) : Prop where
  gentle : Gentle t ∨ t = .level ["log"]
  shallow : ∀ q, Leaf q → q <+: pathOf t → q = pathOf t

/-- What a step needs of the others to stay settled. -/
def Firm : Step → Prop
  | .block b => Leaf [b.sec, b.tested] ∧ Leaf [b.sec, b.key] ∧ b.sec ≠ "log"
  | .default cfg key _ => levelPath <+: cfg ++ [key] → levelPath = cfg ++ [key]
  | .read cfg key _ => Leaf (cfg ++ [key]) ∧ cfg ++ [key] ≠ levelPath
  | .level cfg => cfg = ["log"]

/-- Later steps keep the value of a leaf, except for the level. -/
theorem Later.leaf {data data' x : Json} {t : Step} (ht : Later t) (h : t.run data = some data')
    {q : Path} (hq : Leaf q) (hlevel : q ≠ levelPath) (hx : data.at? q = some x) :
    data'.at? q = some x := by
  refine (run_keeps h hx ?_).2 (.inl (ht.shallow q hq))
  rcases ht.gentle with hgentle | rfl
  · exact .inl hgentle
  · -- A leaf has no other leaf above it.
    right
    show ¬ levelPath <+: q
    intro hbelow
    have hlength := hbelow.length_le
    cases hq with
    | «section» sec key hsec => exact hlevel (hbelow.eq_of_length_le (by simp [levelPath])).symm
    | services key hkey => exact hlevel (hbelow.eq_of_length_le (by simp [levelPath])).symm
    | collector name key =>
        have hhead := List.cons_prefix_cons.mp hbelow
        exact absurd hhead.1 (by decide)

theorem Later.isSome {data data' : Json} {t : Step} (ht : Later t) (h : t.run data = some data')
    {q : Path} (hq : levelPath <+: q → levelPath = q) (hsome : (data.at? q).isSome = true) :
    (data'.at? q).isSome = true := by
  obtain ⟨x, hx⟩ := Option.isSome_iff_exists.mp hsome
  rcases ht.gentle with hgentle | rfl
  · exact (run_keeps h hx (.inl hgentle)).1
  · by_cases heq : levelPath = q
    · -- The level was written.
      subst heq
      obtain ⟨lvl, -, hvalue⟩ := settled_run h
      have hvalue : data'.at? levelPath = some (.str lvl) := hvalue
      rw [hvalue]
      rfl
    · exact (run_keeps h hx (.inr fun hbelow => heq (hq hbelow))).1

/-- Later steps leave a step settled. -/
theorem settled_keeps {data data' : Json} {s t : Step} (hs : Firm s) (ht : Later t)
    (h : t.run data = some data') (hsettled : Settled data s) : Settled data' s := by
  cases s with
  | block b =>
      obtain ⟨htested, hkey, hsec⟩ := hs
      have hne : ∀ key, [b.sec, key] ≠ levelPath := fun key heq => hsec (List.cons.inj heq).1
      rcases hsettled with hsome | hvalue
      · obtain ⟨x, hx⟩ := Option.isSome_iff_exists.mp hsome
        left
        rw [ht.leaf h htested (hne b.tested) hx]
        rfl
      · exact .inr (ht.leaf h hkey (hne b.key) hvalue)
  | default cfg key value => exact ht.isSome h hs hsettled
  | read cfg key ok =>
      obtain ⟨value, hvalue, hok⟩ := hsettled
      exact ⟨value, ht.leaf h hs.1 hs.2 hvalue, hok⟩
  | level cfg =>
      obtain ⟨lvl, hlvl, hvalue⟩ := hsettled
      obtain rfl : cfg = ["log"] := hs
      have hleaf : Leaf levelPath := .section "log" "level" (.inr (.inr rfl))
      rcases ht.gentle with hgentle | rfl
      · exact ⟨lvl, hlvl, (run_keeps h hvalue (.inl hgentle)).2 (.inl (ht.shallow _ hleaf))⟩
      · exact settled_run h

/-! ### The steps of the agent -/

/-- The paths that the steps write to. -/
inductive Shape : Path → Prop where
  | short {p : Path} (h : p.length ≤ 2) : Shape p
  | detector (rest : Path) : Shape ("services" :: "detectors" :: rest)
  | collector (name key : String) : Shape ["collectors", name, key]

theorem Leaf.two_le {q : Path} (hq : Leaf q) : 2 ≤ q.length := by
  cases hq <;> simp

theorem Leaf.shape {q : Path} (hq : Leaf q) : Shape q := by
  cases hq with
  | «section» sec key h => exact .short (by simp)
  | services key h => exact .short (by simp)
  | collector name key => exact .collector name key

/-- No step writes below a leaf. -/
theorem Shape.shallow {p q : Path} (hp : Shape p) (hq : Leaf q) (hbelow : q <+: p) : q = p := by
  cases hp with
  | short h =>
      have hlength := hq.two_le
      exact hbelow.eq_of_length_le (by omega)
  | detector rest =>
      cases hq with
      | «section» sec key h =>
          obtain ⟨rfl, -⟩ := List.cons_prefix_cons.mp hbelow
          exact absurd h (by decide)
      | services key h =>
          obtain ⟨-, hrest⟩ := List.cons_prefix_cons.mp hbelow
          exact absurd (List.cons_prefix_cons.mp hrest).1 h
      | collector name key => exact absurd (List.cons_prefix_cons.mp hbelow).1 (by decide)
  | collector name key =>
      cases hq with
      | «section» sec key h =>
          obtain ⟨rfl, -⟩ := List.cons_prefix_cons.mp hbelow
          exact absurd h (by decide)
      | services key h => exact absurd (List.cons_prefix_cons.mp hbelow).1 (by decide)
      | collector name key => exact hbelow.eq_of_length_le (by simp)

/-- The step stays settled, and leaves the others settled. -/
def Good (t : Step) : Prop := Firm t ∧ Later t

theorem good_block {b : Config.Block} (htested : b.tested = b.key) (hkey : Leaf [b.sec, b.key])
    (hsec : b.sec ≠ "log") : Good (.block b) :=
  ⟨⟨htested ▸ hkey, hkey, hsec⟩, ⟨.inl htested, fun _ hq => hkey.shape.shallow hq⟩⟩

theorem good_default {cfg : Path} {key : String} (value : Json) (h : Shape (cfg ++ [key])) :
    Good (.default cfg key value) :=
  ⟨h.shallow (.section "log" "level" (.inr (.inr rfl))), ⟨.inl trivial, fun _ hq => h.shallow hq⟩⟩

theorem good_read {cfg : Path} {key : String} (ok : Json → Bool) (h : Leaf (cfg ++ [key]))
    (hlevel : cfg ++ [key] ≠ levelPath) : Good (.read cfg key ok) :=
  ⟨⟨h, hlevel⟩, ⟨.inl trivial, fun _ hq => h.shape.shallow hq⟩⟩

theorem good_level : Good (.level ["log"]) :=
  ⟨rfl, ⟨.inr rfl, fun _ hq => Shape.shallow (.short (by decide)) hq⟩⟩

theorem leaf_of_mem_sections {sec key : String} (hsec : sec ∈ ConfigFile.sections)
    (hkey : key ≠ "detectors") : Leaf [sec, key] := by
  have hcases : sec = "server" ∨ sec = "services" ∨ sec = "plugins" := by
    simpa [ConfigFile.sections] using hsec
  rcases hcases with rfl | rfl | rfl
  · exact .section "server" key (.inl rfl)
  · exact .services key hkey
  · exact .section "plugins" key (.inr (.inl rfl))

theorem sec_ne_log {w : Install} {b : Config.Block} (hb : b ∈ Config.blocks w) : b.sec ≠ "log" := by
  intro heq
  have hsec := ConfigFile.sec_mem_sections w b hb
  rw [heq] at hsec
  exact absurd hsec (by decide)

theorem key_ne_detectors (w : Install) :
    ∀ b ∈ Config.blocks w, b.tested ≠ "detectors" ∧ b.key ≠ "detectors" := by
  simp [Config.blocks, Config.block]

theorem firm_blocks {w : Install} {b : Config.Block} (hb : b ∈ Config.blocks w) :
    Firm (.block b) :=
  ⟨leaf_of_mem_sections (ConfigFile.sec_mem_sections w b hb) (key_ne_detectors w b hb).1,
    leaf_of_mem_sections (ConfigFile.sec_mem_sections w b hb) (key_ne_detectors w b hb).2,
    sec_ne_log hb⟩

theorem good_blocks {w : Install} {b : Config.Block} (hb : b ∈ (Config.blocks w).tail) :
    Good (.block b) := by
  have hmem := List.mem_of_mem_tail hb
  exact good_block (ConfigFile.tested_eq_key w b hb) (firm_blocks hmem).2.1 (sec_ne_log hmem)

/-- A step of a section. -/
theorem good_section_read {sec key : String} (ok : Json → Bool)
    (hsec : sec = "server" ∨ sec = "plugins" ∨ sec = "log") (hlevel : [sec, key] ≠ levelPath) :
    Good (.read [sec] key ok) :=
  good_read ok (.section sec key hsec) hlevel

theorem good_beforeDirectories (host : Host) (logFile : String) :
    ∀ t ∈ beforeDirectories host logFile, Good t := by
  have hserver : ∀ key ok, Good (.read ["server"] key ok) := fun key ok =>
    good_section_read ok (.inl rfl) (by simp [levelPath])
  have hplugins : ∀ key, Good (readString ["plugins"] key) := fun key =>
    good_section_read _ (.inr (.inl rfl)) (by simp [levelPath])
  have hlog : ∀ key value, Good (.default ["log"] key value) := fun key value =>
    good_default value (.short (by simp))
  have hget : Good (.default [] "log" (.obj [])) := good_default _ (.short (by simp))
  have hfile : Good (readString ["log"] "file") :=
    good_section_read _ (.inr (.inr rfl)) (by simp [levelPath])
  have hdir : Good (readString ["services"] "config_dir") :=
    good_read _ (.services "config_dir" (by decide)) (by simp [levelPath])
  intro t ht
  simp only [beforeDirectories, getLog, httpServer, log, directoryReads, List.mem_append,
    List.mem_cons, List.not_mem_nil, or_false] at ht
  rcases ht with (rfl | ((rfl | rfl | rfl | rfl | rfl) | rfl | rfl | rfl | rfl) | rfl)
    | rfl | rfl | rfl | rfl | rfl
  · exact hget
  · exact hserver _ _
  · exact hserver _ _
  · exact hserver _ _
  · exact hserver _ _
  · exact hserver _ _
  · exact hlog _ _
  · exact hfile
  · exact hlog _ _
  · exact good_level
  · exact hserver _ _
  · exact hdir
  · exact hplugins _
  · exact hplugins _
  · exact hplugins _
  · exact hplugins _

/-- A detector sets members of its own. -/
theorem good_withDetectorCfg {name : String} {ctor : Path → List Step}
    (hctor : ∀ cfg, ∀ t ∈ ctor cfg, ∃ key value, t = .default cfg key value) :
    ∀ t ∈ withDetectorCfg name ctor, Good t := by
  intro t ht
  rcases List.mem_append.mp ht with ht | ht
  · rw [List.mem_singleton.mp ht]
    exact good_default _ (.detector [name])
  · obtain ⟨key, value, rfl⟩ := hctor _ t ht
    exact good_default value (.detector [name, key])

theorem good_detectors (host : Host) (s : Startup.Services) : ∀ t ∈ detectors host s, Good t := by
  intro t ht
  simp only [detectors, List.mem_append, List.mem_flatMap] at ht
  rcases ht with (ht | ⟨file, -, ht⟩) | ht
  · split at ht
    · refine good_withDetectorCfg (fun cfg t ht => ?_) t ht
      simp only [systemdDetector, serviceDetector, List.mem_append, List.mem_cons,
        List.not_mem_nil, or_false] at ht
      rcases ht with rfl | rfl | rfl <;> exact ⟨_, _, rfl⟩
    · exact absurd ht List.not_mem_nil
  · refine good_withDetectorCfg (fun cfg t ht => ?_) t ht
    exact ⟨_, _, List.mem_singleton.mp ht⟩
  · refine good_withDetectorCfg (fun cfg t ht => ?_) t ht
    simp only [socketDetector, serviceDetector, List.mem_append, List.mem_cons,
      List.not_mem_nil, or_false] at ht
    rcases ht with rfl | rfl <;> exact ⟨_, _, rfl⟩

/-- A collector sets and reads members of its own. -/
theorem good_collector (name : String) (p_history p_freq_pool : Nat) :
    ∀ t ∈ collector ["collectors", name] p_history p_freq_pool, Good t := by
  have hown : ∀ key value, Good (.default ["collectors", name] key value) := fun key value =>
    good_default value (.collector name key)
  intro t ht
  simp only [collector, List.mem_append, List.mem_singleton] at ht
  rcases ht with (ht | ht) | rfl
  · split at ht
    · rw [List.mem_singleton.mp ht]
      exact hown _ _
    · exact absurd ht List.not_mem_nil
  · split at ht
    · rw [List.mem_singleton.mp ht]
      exact hown _ _
    · exact absurd ht List.not_mem_nil
  · exact hown _ _

theorem good_reads (reals : Reals) (name : String) (r : CtorReads) :
    ∀ t ∈ r.steps reals ["collectors", name], Good t := by
  have hown : ∀ key ok, Good (.read ["collectors", name] key ok) := fun key ok =>
    good_read ok (.collector name key) (by simp [levelPath])
  intro t ht
  simp only [CtorReads.steps, List.mem_append] at ht
  rcases ht with ht | ht
  · split at ht
    · rw [List.mem_singleton.mp ht]
      exact hown _ _
    · exact absurd ht List.not_mem_nil
  · split at ht
    · rw [List.mem_singleton.mp ht]
      exact hown _ _
    · exact absurd ht List.not_mem_nil

theorem good_collectors (host : Host) (libraries : List String) (c : Startup.Collectors) :
    ∀ t ∈ collectors host libraries c, Good t := by
  have hget : ∀ name, ∀ t ∈ getCollector name, Good t := by
    intro name t ht
    rw [List.mem_singleton.mp ht]
    exact good_default _ (.short (by simp))
  intro t ht
  simp only [collectors, luaCollector, List.mem_append, List.mem_flatMap, List.mem_cons,
    List.not_mem_nil, or_false] at ht
  rcases ht with ⟨name, -, (ht | ht) | ht⟩ | ⟨file, -, ht | (ht | rfl | rfl) | ht⟩
  · exact hget _ t ht
  · exact good_collector _ _ _ t ht
  · exact good_reads _ _ _ t ht
  · exact hget _ t ht
  · exact good_collector _ _ _ t ht
  · exact good_default _ (.collector _ "history")
  · exact good_default _ (.collector _ "poll-frequency")
  · exact good_reads _ _ _ t ht

/-! ### A start -/

/-- The steps before the directories are read. -/
def firstSteps (w : Install) (logFile : String) (host : Host) : List Step :=
  (Config.blocks w).map .block ++ beforeDirectories host logFile

/-- The steps of the plugins that were found. -/
def pluginSteps (host : Host) (loaded : Startup.Services × Startup.Collectors) : List Step :=
  detectors host loaded.1 ++ collectors host loaded.1.libraries loaded.2

theorem good_pluginSteps (host : Host) (loaded : Startup.Services × Startup.Collectors) :
    ∀ t ∈ pluginSteps host loaded, Good t := by
  intro t ht
  rcases List.mem_append.mp ht with ht | ht
  · exact good_detectors host loaded.1 t ht
  · exact good_collectors host loaded.1.libraries loaded.2 t ht

/-- The first step is the block for `threads`, and the others are good. -/
theorem exists_firstSteps (w : Install) (logFile : String) (host : Host) :
    ∃ t rest, firstSteps w logFile host = t :: rest ∧ Firm t ∧ ∀ s ∈ rest, Good s := by
  refine ⟨.block ConfigFile.threadsBlock,
    (Config.blocks w).tail.map .block ++ beforeDirectories host logFile, rfl,
    firm_blocks (w := w) (List.mem_of_mem_head? rfl), fun s hs => ?_⟩
  rcases List.mem_append.mp hs with hs | hs
  · obtain ⟨b, hb, rfl⟩ := List.mem_map.mp hs
    exact good_blocks hb
  · exact good_beforeDirectories host logFile s hs

theorem runAll_cons {t : Step} {steps : List Step} {data data' : Json} :
    runAll (t :: steps) data = some data'
      ↔ ∃ mid, t.run data = some mid ∧ runAll steps mid = some data' := by
  unfold runAll
  rw [List.foldlM_cons]
  exact Option.bind_eq_some_iff

theorem runAll_append {steps steps' : List Step} {data data' : Json} :
    runAll (steps ++ steps') data = some data'
      ↔ ∃ mid, runAll steps data = some mid ∧ runAll steps' mid = some data' := by
  unfold runAll
  rw [List.foldlM_append]
  exact Option.bind_eq_some_iff

/-- What is done before the directories are read. -/
theorem runAll_firstSteps (w : Install) (logFile : String) (host : Host) (file : Option Json) :
    runAll (firstSteps w logFile host) (file.getD .null)
      = (Config.load w file).bind (runAll (beforeDirectories host logFile)) := by
  have hload : Config.load w file
      = runAll ((Config.blocks w).map .block) (file.getD .null) := by
    unfold Config.load runAll
    rw [List.foldlM_map]
    rfl
  rw [hload]
  unfold firstSteps runAll
  rw [List.foldlM_append]
  rfl

/-- The plugins come from the document as it is then. -/
theorem found_eq_some {w : Install} {logFile : String} {host : Host} {file : Option Json}
    {loaded : Startup.Services × Startup.Collectors} :
    found w logFile host file = some loaded ↔
      ∃ mid, runAll (firstSteps w logFile host) (file.getD .null) = some mid ∧
        Startup.init host.plugins (host.directories mid) = some loaded := by
  have hfound : found w logFile host file
      = (runAll (firstSteps w logFile host) (file.getD .null)).bind
        (fun mid => Startup.init host.plugins (host.directories mid)) := by
    rw [runAll_firstSteps, Option.bind_assoc]
    rfl
  rw [hfound]
  exact Option.bind_eq_some_iff

/-- A start in two parts. -/
theorem start_eq_some {w : Install} {logFile : String} {host : Host} {file : Option Json}
    {doc : Json} : start w logFile host file = some doc ↔
      ∃ mid loaded, runAll (firstSteps w logFile host) (file.getD .null) = some mid ∧
        Startup.init host.plugins (host.directories mid) = some loaded ∧
        runAll (pluginSteps host loaded) mid = some doc := by
  rw [runAll_firstSteps]
  unfold start
  constructor
  · intro h
    obtain ⟨data, hdata, h⟩ := Option.bind_eq_some_iff.mp h
    obtain ⟨mid, hmid, h⟩ := Option.bind_eq_some_iff.mp h
    obtain ⟨loaded, hloaded, h⟩ := Option.bind_eq_some_iff.mp h
    exact ⟨mid, loaded, Option.bind_eq_some_iff.mpr ⟨data, hdata, hmid⟩, hloaded, h⟩
  · rintro ⟨mid, loaded, hmid, hloaded, h⟩
    obtain ⟨data, hdata, hmid⟩ := Option.bind_eq_some_iff.mp hmid
    exact Option.bind_eq_some_iff.mpr ⟨data, hdata, Option.bind_eq_some_iff.mpr ⟨mid, hmid,
      Option.bind_eq_some_iff.mpr ⟨loaded, hloaded, h⟩⟩⟩

/-- What good steps keep. -/
theorem runAll_keeps {I : Json → Prop} {steps : List Step} (hsteps : ∀ t ∈ steps, Good t)
    (hkeep : ∀ data data' t, Later t → t.run data = some data' → I data → I data')
    {data data' : Json} (h : runAll steps data = some data') (hdata : I data) : I data' := by
  induction steps generalizing data with
  | nil =>
      obtain rfl : data = data' := Option.some.inj h
      exact hdata
  | cons t steps ih =>
      obtain ⟨mid, hmid, h⟩ := runAll_cons.mp h
      have hrest : ∀ t ∈ steps, Good t := fun s hs => hsteps s (List.mem_cons_of_mem t hs)
      exact ih hrest h (hkeep data mid t (hsteps t List.mem_cons_self).2 hmid hdata)

/-- Steps that are good after the first one are all settled at the end. -/
theorem settled_runAll {t : Step} {steps : List Step} (ht : Firm t) (hsteps : ∀ s ∈ steps, Good s)
    {data data' : Json} (h : runAll (t :: steps) data = some data') :
    ∀ s ∈ t :: steps, Settled data' s := by
  induction steps generalizing t data with
  | nil =>
      intro s hs
      rw [List.mem_singleton.mp hs]
      obtain ⟨mid, hmid, h⟩ := runAll_cons.mp h
      obtain rfl : mid = data' := Option.some.inj h
      exact settled_run hmid
  | cons t' steps ih =>
      obtain ⟨mid, hmid, htail⟩ := runAll_cons.mp h
      have hrest : ∀ s ∈ steps, Good s := fun s hs => hsteps s (List.mem_cons_of_mem t' hs)
      intro s hs
      rcases List.mem_cons.mp hs with rfl | hs
      · -- The first step is settled at once, and the others keep it so.
        exact runAll_keeps hsteps (fun _ _ _ hlater hrun => settled_keeps ht hlater hrun) htail
          (settled_run hmid)
      · exact ih (hsteps t' List.mem_cons_self).1 hrest htail s hs

/-- Settled steps change nothing. -/
theorem runAll_of_settled {steps : List Step} {data : Json} (h : ∀ s ∈ steps, Settled data s) :
    runAll steps data = some data :=
  Fallible.foldlM_fixed (fun s hs => run_of_settled (h s hs))

/-- All steps of a start are settled in the document it gives, and it names the directories that
the plugins were found in. -/
theorem start_spec {w : Install} {logFile : String} {host : Host} {file : Option Json} {doc : Json}
    (h : start w logFile host file = some doc) :
    ∃ loaded, found w logFile host file = some loaded ∧
      Startup.init host.plugins (host.directories doc) = some loaded ∧
      ∀ s ∈ firstSteps w logFile host ++ pluginSteps host loaded, Settled doc s := by
  obtain ⟨mid, loaded, hmid, hloaded, hdoc⟩ := start_eq_some.mp h
  obtain ⟨t, rest, hfirst, ht, hrest⟩ := exists_firstSteps w logFile host
  have hplugins := good_pluginSteps host loaded
  have hmidSettled : ∀ s ∈ firstSteps w logFile host, Settled mid s := by
    rw [hfirst] at hmid ⊢
    exact settled_runAll ht hrest hmid
  -- The texts of the directories are the same in both documents.
  have htext : ∀ sec key, readString [sec] key ∈ firstSteps w logFile host →
      textAt doc [sec, key] = textAt mid [sec, key] := by
    intro sec key hmem
    obtain ⟨value, hvalue, -⟩ := hmidSettled _ hmem
    have hfirm : Firm (readString [sec] key) := by
      rw [hfirst] at hmem
      rcases List.mem_cons.mp hmem with rfl | hmem
      · exact ht
      · exact (hrest _ hmem).1
    have hkept : doc.at? [sec, key] = some value :=
      runAll_keeps hplugins (fun _ _ _ hlater hrun => hlater.leaf hrun hfirm.1 hfirm.2) hdoc hvalue
    unfold textAt
    rw [hkept, show mid.at? [sec, key] = some value from hvalue]
  have hdirs : host.directories doc = host.directories mid := by
    have hread : ∀ s ∈ directoryReads, s ∈ firstSteps w logFile host := fun s hs =>
      List.mem_append_right _ (List.mem_append_right _ hs)
    unfold Host.directories
    rw [htext "services" "config_dir" (hread _ (by simp [directoryReads])),
      htext "plugins" "services_cpp" (hread _ (by simp [directoryReads])),
      htext "plugins" "services_lua" (hread _ (by simp [directoryReads])),
      htext "plugins" "collectors_cpp" (hread _ (by simp [directoryReads])),
      htext "plugins" "collectors_lua" (hread _ (by simp [directoryReads]))]
  refine ⟨loaded, found_eq_some.mpr ⟨mid, hmid, hloaded⟩, hdirs ▸ hloaded, fun s hs => ?_⟩
  have hall : runAll (t :: (rest ++ pluginSteps host loaded)) (file.getD .null) = some doc := by
    rw [hfirst] at hmid
    rw [← List.cons_append]
    exact runAll_append.mpr ⟨mid, hmid, hdoc⟩
  rw [hfirst] at hs
  refine settled_runAll ht (fun s hs => ?_) hall s hs
  rcases List.mem_append.mp hs with hs | hs
  · exact hrest s hs
  · exact hplugins s hs

/-- A start from the document of a start changes nothing and finds the same plugins. -/
theorem start_again {w : Install} {logFile : String} {host : Host} {file : Option Json} {doc : Json}
    (h : start w logFile host file = some doc) :
    start w logFile host (some doc) = some doc ∧
      found w logFile host (some doc) = found w logFile host file := by
  obtain ⟨loaded, hfound, hloaded, hsettled⟩ := start_spec h
  have hfirst : runAll (firstSteps w logFile host) doc = some doc :=
    runAll_of_settled fun s hs => hsettled s (List.mem_append_left _ hs)
  have hplugins : runAll (pluginSteps host loaded) doc = some doc :=
    runAll_of_settled fun s hs => hsettled s (List.mem_append_right _ hs)
  refine ⟨start_eq_some.mpr ⟨doc, loaded, hfirst, hloaded, hplugins⟩, ?_⟩
  rw [hfound]
  exact found_eq_some.mpr ⟨doc, hfirst, hloaded⟩

/-- For every configuration, every host and every file: a start from the file that a start has
saved finds the same plugins and saves the same file. -/
theorem second_start (w : Install) (logFile : String) (host : Host) (writable : Bool)
    (file file' : Option Json) (h : startAndSave w logFile host writable file = some file') :
    found w logFile host file' = found w logFile host file ∧
      startAndSave w logFile host writable file' = some file' := by
  obtain ⟨doc, hdoc, rfl⟩ := Option.map_eq_some_iff.mp h
  cases writable with
  | false => exact ⟨rfl, h⟩
  | true =>
      obtain ⟨hstart, hfound⟩ := start_again hdoc
      refine ⟨hfound, ?_⟩
      show (start w logFile host (some doc)).map (Config.save true (some doc)) = _
      rw [hstart]
      rfl

/-- A host with the collector of the load as a script, and no other plugins. -/
def scriptHost : Host where
  plugins := { library := fun _ => {}, isType := fun _ _ => false }
  readdir := fun dir =>
    if dir = "/usr/local/lib/watched/collectors.lua" then
      some [{ name := "cpuload.lua", stat := some .regular }]
    else some []
  hasSystemd := fun _ => false
  reads := fun _ => {}
  script := fun _ => { history := 150, poolfreq := 10, reads := { history := true } }
  reals := { inInt := fun _ => false, inUInt := fun _ => false }

/-- A configuration of the user. -/
def debugConfig : Json :=
  .obj [("log", .obj [("level", .str "debug")]),
    ("collectors", .obj [("cpuload", .obj [("history", .int 20)])])]

theorem start_debugConfig :
    (start localInstall "/var/log/watched.agent.log" scriptHost (some debugConfig)).isSome
      = true := by
  decide +kernel

theorem second_start_debugConfig : ∃ file',
    startAndSave localInstall "/var/log/watched.agent.log" scriptHost true (some debugConfig)
        = some file' ∧
      (found localInstall "/var/log/watched.agent.log" scriptHost (some debugConfig)).map
        (·.2.collectors) = some ["cpuload"] ∧
      found localInstall "/var/log/watched.agent.log" scriptHost file'
        = found localInstall "/var/log/watched.agent.log" scriptHost (some debugConfig) ∧
      startAndSave localInstall "/var/log/watched.agent.log" scriptHost true file' = some file' := by
  obtain ⟨doc, hdoc⟩ := Option.isSome_iff_exists.mp start_debugConfig
  have hsave : startAndSave localInstall "/var/log/watched.agent.log" scriptHost true
      (some debugConfig) = some (some doc) := by
    unfold startAndSave
    rw [hdoc]
    rfl
  exact ⟨some doc, hsave, by decide +kernel, second_start _ _ _ true _ _ hsave⟩

/-! ### What the user wrote -/

/-- The member that the first block writes over. -/
def threadsPath : Path := ["server", "threads"]

/-- The first block, and then what good steps keep. -/
theorem start_invariant {I : Json → Prop} {w : Install} {logFile : String} {host : Host}
    {doc doc' : Json} (hfirst : ∀ data data',
      Step.run data (.block ConfigFile.threadsBlock) = some data' → I data → I data')
    (hkeep : ∀ data data' t, Later t → t.run data = some data' → I data → I data')
    (h : start w logFile host (some doc) = some doc') (hdoc : I doc) : I doc' := by
  obtain ⟨mid, loaded, hmid, -, hrest⟩ := start_eq_some.mp h
  obtain ⟨data, hblock, hmid⟩ := runAll_cons.mp hmid
  refine runAll_keeps (good_pluginSteps host loaded) hkeep hrest ?_
  refine runAll_keeps (fun s hs => ?_) hkeep hmid (hfirst doc data hblock hdoc)
  rcases List.mem_append.mp hs with hs | hs
  · obtain ⟨b, hb, rfl⟩ := List.mem_map.mp hs
    exact good_blocks hb
  · exact good_beforeDirectories host logFile s hs

/-- The steps of a start keep what is at a path, but for the two members. -/
theorem start_keeps_at {w : Install} {logFile : String} {host : Host} {doc doc' x : Json} {q : Path}
    (h : start w logFile host (some doc) = some doc') (hx : doc.at? q = some x)
    (hthreads : ¬ threadsPath <+: q) (hlevel : ¬ levelPath <+: q) :
    (doc'.at? q).isSome = true ∧ (¬ x.IsObjectOrNull → doc'.at? q = some x) := by
  let I (data : Json) : Prop := ∃ y, data.at? q = some y ∧ (¬ x.IsObjectOrNull → y = x)
  have hstep : ∀ data data' t, Gentle t ∨ ¬ pathOf t <+: q → t.run data = some data' →
      I data → I data' := by
    rintro data data' t ht hrun ⟨y, hy, hyx⟩
    obtain ⟨hsome, hscalar⟩ := run_keeps hrun hy ht
    by_cases hobj : x.IsObjectOrNull
    · obtain ⟨z, hz⟩ := Option.isSome_iff_exists.mp hsome
      exact ⟨z, hz, fun hnot => absurd hobj hnot⟩
    · have hnot : ¬ y.IsObjectOrNull := by
        rw [hyx hobj]
        exact hobj
      exact ⟨y, hscalar (.inr hnot), hyx⟩
  have hend : I doc' := by
    refine start_invariant (fun data data' => hstep data data' _ (.inr hthreads))
      (fun data data' t ht => hstep data data' t ?_) h ⟨x, hx, fun _ => rfl⟩
    rcases ht.gentle with hgentle | rfl
    · exact .inl hgentle
    · exact .inr hlevel
  obtain ⟨y, hy, hyx⟩ := hend
  refine ⟨by rw [hy]; rfl, fun hnot => ?_⟩
  rw [hy, hyx hnot]

/-- The name of a level that the log takes for a text. -/
def levelName (lvl : String) : String := AgentLog.levels[AgentLog.findLevel lvl]?.getD ""

/-- The level of the log is written with its own name. -/
theorem start_level {w : Install} {logFile : String} {host : Host} {doc doc' x : Json} {lvl : String}
    (h : start w logFile host (some doc) = some doc') (hx : doc.at? levelPath = some x)
    (hlvl : asString x = some lvl) : doc'.at? levelPath = some (.str (levelName lvl)) := by
  have hleaf : Leaf levelPath := .section "log" "level" (.inr (.inr rfl))
  -- A level is the one of what was there, however often it is written.
  let I (data : Json) : Prop := ∃ y lvl', data.at? levelPath = some y ∧ asString y = some lvl' ∧
    levelName lvl' = levelName lvl
  have hfirst : ∀ data data', Step.run data (.block ConfigFile.threadsBlock) = some data' →
      I data → I data' := by
    rintro data data' hrun ⟨y, lvl', hy, hread, hname⟩
    have hshape : Shape (pathOf (.block ConfigFile.threadsBlock)) := .short (by decide)
    have hy' := (run_keeps hrun hy (.inr (by decide))).2 (.inl (hshape.shallow hleaf))
    exact ⟨y, lvl', hy', hread, hname⟩
  have hend : I doc' := by
    refine start_invariant hfirst (fun data data' t ht hrun hI => ?_) h ⟨x, lvl, hx, hlvl, rfl⟩
    obtain ⟨y, lvl', hy, hread, hname⟩ := hI
    rcases ht.gentle with hgentle | rfl
    · exact ⟨y, lvl', (run_keeps hrun hy (.inl hgentle)).2 (.inl (ht.shallow _ hleaf)), hread, hname⟩
    · have hlevel : (Step.level ["log"]).run data
          = data.setAt levelPath (.str (levelName lvl')) := by
        unfold Step.run
        dsimp only
        rw [show data.getAt (["log"] ++ ["level"]) = some y from Json.getAt_of_at? hy,
          Option.bind_eq_bind, Option.bind_some, hread]
        rfl
      refine ⟨_, levelName lvl', Json.at?_setAt_self (hlevel.symm.trans hrun), rfl, ?_⟩
      rw [← hname]
      exact findLevel_levels _ (levels_findLevel_mem lvl')
  obtain ⟨loaded, -, -, hsettled⟩ := start_spec h
  obtain ⟨name, hname, hvalue⟩ : Settled doc' (.level ["log"]) :=
    hsettled _ (by simp [firstSteps, beforeDirectories, httpServer, log])
  obtain ⟨y, lvl', hy, hread, heq⟩ := hend
  have hvalue : doc'.at? levelPath = some (.str name) := hvalue
  obtain rfl : y = .str name := Option.some.inj (hy.symm.trans hvalue)
  obtain rfl : name = lvl' := Option.some.inj hread
  rw [hvalue, ← heq]
  exact congrArg (fun n => some (Json.str n)) (findLevel_levels name hname).symm

/-! ### The collectors -/

/-- What the loading of files keeps. -/
theorem scan_keeps {σ : Type} {I : σ → Prop} {ext : String} {load : σ → String → σ}
    {dir : Option (List Dirent)} {s s' : σ} (hload : ∀ s file, I s → I (load s file))
    (h : Startup.scan ext load dir s = some s') (hs : I s) : I s' := by
  refine Fallible.foldlM_keeps (fun s ent s' hI hrun => ?_) hs h
  unfold Startup.scanEntry at hrun
  split at hrun
  · exact Option.some.inj hrun ▸ hI
  · split at hrun
    · exact Option.some.inj hrun ▸ hI
    · split at hrun
      · exact Option.some.inj hrun ▸ hI
      · obtain ⟨found, -, hrun⟩ := Option.bind_eq_some_iff.mp hrun
        split at hrun
        · exact Option.some.inj hrun ▸ hload s _ hI
        · exact Option.some.inj hrun ▸ hI

/-- A collector comes from a library or from a script. -/
theorem exists_of_mem_collectors {plugins : Startup.Plugins} {dirs : Startup.Directories}
    {loaded : Startup.Services × Startup.Collectors}
    (h : Startup.init plugins dirs = some loaded) {name : String}
    (hname : name ∈ loaded.2.collectors) :
    name ∈ Startup.collectorFactory plugins (loaded.1.libraries ++ loaded.2.libraries) ∨
      ∃ file ∈ loaded.2.scripts, Startup.stem file = name := by
  obtain ⟨s₁, -, h⟩ := Option.bind_eq_some_iff.mp h
  obtain ⟨s₂, -, h⟩ := Option.bind_eq_some_iff.mp h
  obtain ⟨s, -, h⟩ := Option.bind_eq_some_iff.mp h
  obtain ⟨c, hc, h⟩ := Option.bind_eq_some_iff.mp h
  obtain rfl : (s, c) = loaded := Option.some.inj h
  obtain ⟨c₁, -, hc⟩ := Option.bind_eq_some_iff.mp hc
  let I (c : Startup.Collectors) : Prop := c.libraries = c₁.libraries ∧ ∀ name ∈ c.collectors,
    name ∈ Startup.collectorFactory plugins (s.libraries ++ c₁.libraries) ∨
      ∃ file ∈ c.scripts, Startup.stem file = name
  have hload : ∀ c file, I c → I (Startup.loadCollector c file) := by
    rintro c file ⟨hlibraries, hI⟩
    unfold Startup.loadCollector
    split
    · exact ⟨hlibraries, hI⟩
    · refine ⟨hlibraries, fun name hname => ?_⟩
      rcases List.mem_append.mp hname with hname | hname
      · rcases hI name hname with hfactory | ⟨f, hf, hstem⟩
        · exact .inl hfactory
        · exact .inr ⟨f, List.mem_append_left _ hf, hstem⟩
      · rw [List.mem_singleton.mp hname]
        exact .inr ⟨file, List.mem_append_right _ (List.mem_singleton_self file), rfl⟩
  obtain ⟨hlibraries, hI⟩ : I c := scan_keeps hload hc ⟨rfl, fun name hname => .inl hname⟩
  rw [hlibraries]
  exact hI name hname

/-- Each of the collectors has its settings. -/
theorem start_complete {w : Install} {logFile : String} {host : Host} {file : Option Json}
    {doc : Json} (h : start w logFile host file = some doc) :
    ∃ loaded, Startup.init host.plugins (host.directories doc) = some loaded ∧
      ∀ name ∈ loaded.2.collectors, ∀ key ∈ ["enable", "history", "poll-frequency"],
        (doc.at? ["collectors", name, key]).isSome = true := by
  obtain ⟨loaded, -, hloaded, hsettled⟩ := start_spec h
  refine ⟨loaded, hloaded, fun name hname key hkey => ?_⟩
  -- A default for the member is among the steps.
  have hsome : ∀ value, Step.default ["collectors", name] key value
      ∈ collectors host loaded.1.libraries loaded.2 →
      (doc.at? ["collectors", name, key]).isSome = true := fun value hmem =>
    hsettled _ (List.mem_append_right _ (List.mem_append_right _ hmem))
  have hkey : key = "enable" ∨ key = "history" ∨ key = "poll-frequency" := by simpa using hkey
  rcases exists_of_mem_collectors hloaded hname with hfactory | ⟨file, hfile, rfl⟩
  · have hpos : 0 < (defaultsOf name).1 ∧ 0 < (defaultsOf name).2 := by
      unfold defaultsOf
      split
      · decide
      · split <;> decide
    have hmem : ∀ t ∈ collector ["collectors", name] (defaultsOf name).1 (defaultsOf name).2,
        t ∈ collectors host loaded.1.libraries loaded.2 := fun t ht =>
      List.mem_append_left _ (List.mem_flatMap.mpr ⟨name, hfactory,
        List.mem_append_left _ (List.mem_append_right _ ht)⟩)
    rcases hkey with rfl | rfl | rfl
    · exact hsome (.bool true) (hmem _ (by simp [collector]))
    · exact hsome (.int (defaultsOf name).1) (hmem _ (by simp [collector, hpos]))
    · exact hsome (.int (defaultsOf name).2) (hmem _ (by simp [collector, hpos]))
  · have hmem : ∀ t ∈ luaCollector host.reals ["collectors", Startup.stem file] (host.script file),
        t ∈ collectors host loaded.1.libraries loaded.2 := fun t ht =>
      List.mem_append_right _ (List.mem_flatMap.mpr ⟨file, hfile, List.mem_append_right _ ht⟩)
    rcases hkey with rfl | rfl | rfl
    · exact hsome (.bool true) (hmem _ (by simp [luaCollector, collector]))
    · exact hsome (.int (host.script file).history) (hmem _ (by simp [luaCollector]))
    · exact hsome (.int (host.script file).poolfreq) (hmem _ (by simp [luaCollector]))

/-- For every configuration and every host: a start keeps all that the user wrote, but for the
number of threads, and for the level of the log, which gets its own name. Afterwards each collector
has its settings. -/
theorem start_keeps (w : Install) (logFile : String) (host : Host) (doc doc' : Json)
    (h : start w logFile host (some doc) = some doc') :
    (∀ q x, doc.at? q = some x → ¬ threadsPath <+: q → ¬ levelPath <+: q →
      (doc'.at? q).isSome = true ∧ (¬ x.IsObjectOrNull → doc'.at? q = some x)) ∧
    (∀ x lvl, doc.at? levelPath = some x → asString x = some lvl →
      doc'.at? levelPath = some (.str (levelName lvl))) ∧
    ∃ loaded, Startup.init host.plugins (host.directories doc') = some loaded ∧
      ∀ name ∈ loaded.2.collectors, ∀ key ∈ ["enable", "history", "poll-frequency"],
        (doc'.at? ["collectors", name, key]).isSome = true :=
  ⟨fun _ _ hx hthreads hlevel => start_keeps_at h hx hthreads hlevel,
    fun _ _ hx hlvl => start_level h hx hlvl, start_complete h⟩

/-- The user's history stays, and the level gets its name. -/
theorem start_keeps_debugConfig : ∃ doc',
    start localInstall "/var/log/watched.agent.log" scriptHost (some debugConfig) = some doc' ∧
      doc'.at? ["collectors", "cpuload", "history"] = some (.int 20) ∧
      doc'.at? levelPath = some (.str "DEBUG") := by
  obtain ⟨doc', hdoc⟩ := Option.isSome_iff_exists.mp start_debugConfig
  obtain ⟨hkeeps, hlevel, -⟩ := start_keeps _ _ _ debugConfig doc' hdoc
  have hhistory := (hkeeps ["collectors", "cpuload", "history"] (.int 20) rfl (by decide)
    (by decide)).2 id
  exact ⟨doc', hdoc, hhistory, hlevel (.str "debug") "debug" rfl rfl⟩

end WatchedAgent.Proofs.SecondStart
