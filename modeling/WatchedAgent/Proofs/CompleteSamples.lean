import WatchedAgent.Lib.Run
import WatchedAgent.Model.Ressource
import Mathlib.Logic.Function.Basic

/-!
# `WatchedAgent.Proofs.CompleteSamples`: readers and collecting passes

A run interleaves the passes of a collector's thread with its readers. Next to the
collector a `World` keeps a ledger of all samples ever made, each under its serial number,
and of the samples delivered. A delivered sample is complete when the ledger goes on
holding it: a value that the pass writes later would show as a difference (`Complete`).

`GET .../history` takes the lock, and `GET /all` does not. So a `setProperty` call can
change a sample that `GET /all` has delivered already. `always_complete_of_meets` shows that
there is no other way.
-/

set_option autoImplicit false

namespace WatchedAgent.Proofs

open WatchedAgent.Lib (Json)
open WatchedAgent.Lib.Run
open WatchedAgent.Model

namespace CompleteSamples

/-- A sample in a reply, with its serial number in its ressource. -/
structure Delivered where
  res : String
  serial : Nat
  sample : Sample

/-- The collector, all samples ever made (the newest first), the samples delivered, and the
ressources the present pass has begun a sample of that `GET /all` has not read since. -/
structure World where
  coll : Collector
  ledger : String → List Sample
  delivered : List Delivered := []
  fresh : List String := []

/-- The steps of the thread and of the two kinds of readers. A turn of `GET /all` reads one
ressource. -/
inductive Move where
  | take
  | call (c : Call)
  | release
  | getAll (res : String) (since : Int)
  | getHistory (res : String) (since : Int)

/-- The stored samples with their serial numbers, when `n` samples were made. -/
def serials : Nat → List Sample → List (Nat × Sample)
  | _, [] => []
  | n, s :: v => (n - 1, s) :: serials (n - 1) v

/-- What a reader of `r` delivers. -/
def deliver (w : World) (res : String) (since : Int) : List Delivered :=
  match w.coll.ressources.lookup res with
  | none => []
  | some r =>
      ((serials (w.ledger res).length r.v).reverse.filter (fun e => e.2.isSince since)).map
        (fun e => ⟨res, e.1, e.2⟩)

/-- The ledger after a call. -/
def ledgerCall (w : World) : Call → String → List Sample
  | .nextValue res now =>
      match w.coll.ressources.lookup res with
      | none => w.ledger
      | some r => Function.update w.ledger res
          (Json.insert "timestamp" (.int now) (r.v.headD []) :: w.ledger res)
  | .setProperty res name val =>
      match w.coll.ressources.lookup res with
      | none => w.ledger
      | some r =>
          if r.v = [] then w.ledger
          else Function.update w.ledger res ((w.ledger res).modifyHead (Json.insert name val))

/-- The fresh ressources after a call. -/
def freshCall (w : World) : Call → List String
  | .nextValue res _ => if (w.coll.ressources.lookup res).isSome then res :: w.fresh else w.fresh
  | .setProperty _ _ _ => w.fresh

/-- One step of an interleaving. A call outside a pass, and a reader that waits for the
lock, change nothing. -/
def step (w : World) : Move → World
  | .take =>
      if w.coll.locked then w else { w with coll := { w.coll with locked := true }, fresh := [] }
  | .call c =>
      if w.coll.locked then
        { w with coll := w.coll.call c, ledger := ledgerCall w c, fresh := freshCall w c }
      else w
  | .release => { w with coll := { w.coll with locked := false }, fresh := [] }
  | .getAll res since =>
      { w with delivered := w.delivered ++ deliver w res since
               fresh := w.fresh.filter (· ≠ res) }
  | .getHistory res since =>
      match w.coll.doGetHistory res since with
      | some (.ok _) => { w with delivered := w.delivered ++ deliver w res since }
      | _ => w

/-- A collector before its first reader. -/
def start (c : Collector) : World where
  coll := { c with locked := false }
  ledger := fun res => ((c.ressources.lookup res).map Ressource.v).getD []

/-- Every delivered sample holds the values its pass gave it in the end. -/
def Complete (w : World) : Prop :=
  ∀ d ∈ w.delivered, (w.ledger d.res).reverse[d.serial]? = some d.sample

/-- A pass sets the properties of a ressource after a `nextValue` of its own, with no read
of this ressource by `GET /all` in between. -/
def Good (w : World) : Move → Prop
  | .call (.setProperty res _ _) => w.coll.locked = true → res ∈ w.fresh
  | _ => True

instance : ∀ w a, Decidable (Good w a)
  | w, .call (.setProperty res _ _) =>
      inferInstanceAs (Decidable (w.coll.locked = true → res ∈ w.fresh))
  | _, .call (.nextValue _ _) => inferInstanceAs (Decidable True)
  | _, .take => inferInstanceAs (Decidable True)
  | _, .release => inferInstanceAs (Decidable True)
  | _, .getAll _ _ => inferInstanceAs (Decidable True)
  | _, .getHistory _ _ => inferInstanceAs (Decidable True)

/-- A reader delivers what the functions of the source return. -/
theorem map_deliver (w : World) (res : String) (since : Int) :
    (deliver w res since).map Delivered.sample = w.coll.getJsonHistory res since := by
  have hsnd : ∀ (v : List Sample) (n : Nat), (serials n v).map Prod.snd = v := by
    intro v
    induction v with
    | nil => intro n; rfl
    | cons s v ih => intro n; simp [serials, ih]
  unfold deliver Collector.getJsonHistory
  cases w.coll.ressources.lookup res with
  | none => rfl
  | some r =>
      dsimp only
      rw [List.map_map]
      show List.map Prod.snd (List.filter ((Sample.isSince since) ∘ Prod.snd) _) = _
      rw [← List.filter_map, List.map_reverse, hsnd]
      rfl

/-! ### Serial numbers -/

/-- A numbered sample is where the ledger has it. -/
theorem mem_serials {v l : List Sample} (h : v <+: l) {k : Nat} {s : Sample}
    (hmem : (k, s) ∈ serials l.length v) : l.reverse[k]? = some s ∧ k < l.length := by
  induction v generalizing l with
  | nil => simp [serials] at hmem
  | cons s' v ih =>
      obtain ⟨t, rfl⟩ := h
      rw [List.cons_append] at hmem ⊢
      rw [List.reverse_cons]
      rcases List.mem_cons.mp hmem with heq | hmem
      · -- The newest sample has the last number.
        obtain ⟨rfl, rfl⟩ := Prod.mk.inj heq
        constructor
        · rw [List.length_cons, Nat.add_sub_cancel, ← List.length_reverse,
            List.getElem?_append_right (Nat.le_refl _), Nat.sub_self]
          rfl
        · rw [List.length_cons]
          omega
      · obtain ⟨hget, hlt⟩ := ih (List.prefix_append v t) hmem
        constructor
        · rw [List.getElem?_append_left (by rwa [List.length_reverse]), hget]
        · rw [List.length_cons]
          omega

/-- A reader delivers samples of the ledger. -/
theorem mem_deliver {w : World}
    (hstored : ∀ res r, w.coll.ressources.lookup res = some r → r.v <+: w.ledger res)
    {res : String} {since : Int} {d : Delivered} (hd : d ∈ deliver w res since) :
    d.res = res ∧ (w.ledger d.res).reverse[d.serial]? = some d.sample := by
  unfold deliver at hd
  cases hr : w.coll.ressources.lookup res with
  | none => simp [hr] at hd
  | some r =>
      rw [hr] at hd
      obtain ⟨⟨k, s⟩, hks, rfl⟩ := List.mem_map.mp hd
      have hmem := List.mem_reverse.mp (List.mem_filter.mp hks).1
      exact ⟨rfl, (mem_serials (hstored res r hr) hmem).1⟩

/-! ### The invariant -/

/-- The collector stores the newest samples of the ledger. The newest sample of a fresh
ressource was not delivered, and only a pass has fresh ressources. -/
structure Inv (w : World) : Prop where
  stored : ∀ res r, w.coll.ressources.lookup res = some r → r.v <+: w.ledger res
  complete : Complete w
  fresh : ∀ res ∈ w.fresh, w.coll.locked = true ∧
    ∀ d ∈ w.delivered, d.res = res → d.serial + 1 < (w.ledger res).length

theorem inv_start (c : Collector) : Inv (start c) where
  stored := by
    intro res r hr
    have hr : c.ressources.lookup res = some r := hr
    show r.v <+: ((c.ressources.lookup res).map Ressource.v).getD []
    rw [hr]
    exact List.prefix_refl r.v
  complete := by simp [Complete, start]
  fresh := by simp [start]

/-- A delivered sample is one of the ledger. -/
theorem Complete.lt {w : World} (h : Complete w) {d : Delivered} (hd : d ∈ w.delivered) :
    d.serial < (w.ledger d.res).length := by
  have hsome := h d hd
  have hlt := (List.getElem?_eq_some_iff.mp hsome).1
  simpa using hlt

/-- Reading keeps the invariant, where it is no read of a fresh ressource. -/
theorem inv_deliver {w : World} (h : Inv w) (res : String) (since : Int) (fresh : List String)
    (hfresh : ∀ name ∈ fresh, name ∈ w.fresh ∧ name ≠ res) :
    Inv { w with delivered := w.delivered ++ deliver w res since, fresh } where
  stored := h.stored
  complete := by
    intro d hd
    rcases List.mem_append.mp hd with hd | hd
    · exact h.complete d hd
    · exact (mem_deliver h.stored hd).2
  fresh := by
    intro name hname
    obtain ⟨hmem, hne⟩ := hfresh name hname
    refine ⟨(h.fresh name hmem).1, fun d hd hdres => ?_⟩
    rcases List.mem_append.mp hd with hd | hd
    · exact (h.fresh name hmem).2 d hd hdres
    · exact absurd (hdres.symm.trans (mem_deliver h.stored hd).1) hne

/-- The ledger under a sample stays where it is. -/
theorem getElem?_reverse_cons (s : Sample) {l : List Sample} {k : Nat} (h : k < l.length) :
    (s :: l).reverse[k]? = l.reverse[k]? := by
  rw [List.reverse_cons, List.getElem?_append_left (by rwa [List.length_reverse])]

/-- A new sample is put on top of the ledger. -/
theorem inv_nextValue {w : World} (h : Inv w) (hlock : w.coll.locked = true) {res : String}
    (now : Int) {r : Ressource} (hr : w.coll.ressources.lookup res = some r) :
    Inv { w with
      coll := w.coll.call (.nextValue res now)
      ledger := Function.update w.ledger res
        (Json.insert "timestamp" (.int now) (r.v.headD []) :: w.ledger res)
      fresh := res :: w.fresh } where
  stored := by
    intro name r' hr'
    have hr' := (Collector.lookup_modify res (Ressource.nextValue now) _ name).symm.trans hr'
    dsimp only
    by_cases hname : name = res
    · subst hname
      rw [if_pos rfl, hr] at hr'
      obtain rfl : r.nextValue now = r' := by simpa using hr'
      rw [Function.update_self]
      -- Old samples may be cut off, which leaves a prefix.
      exact (List.take_prefix _ _).trans ((List.prefix_cons_inj _).mpr (h.stored name r hr))
    · rw [if_neg hname] at hr'
      rw [Function.update_of_ne hname]
      exact h.stored name r' hr'
  complete := by
    intro d hd
    dsimp only
    by_cases hname : d.res = res
    · rw [hname, Function.update_self,
        getElem?_reverse_cons _ (hname ▸ Complete.lt h.complete hd), ← hname]
      exact h.complete d hd
    · rw [Function.update_of_ne hname]
      exact h.complete d hd
  fresh := by
    intro name hmem
    refine ⟨hlock, fun d hd hname => ?_⟩
    have hlt := Complete.lt h.complete hd
    dsimp only
    by_cases heq : name = res
    · subst heq
      rw [Function.update_self, List.length_cons, ← hname]
      omega
    · rw [Function.update_of_ne heq]
      exact (h.fresh name ((List.mem_cons.mp hmem).resolve_left heq)).2 d hd hname

/-- The newest sample of a fresh ressource can change: nobody has seen it. -/
theorem inv_setProperty {w : World} (h : Inv w) {res : String} (hres : res ∈ w.fresh)
    (name : String) (val : Json) {r : Ressource} (hr : w.coll.ressources.lookup res = some r)
    {s : Sample} {v : List Sample} (hv : r.v = s :: v) :
    Inv { w with
      coll := w.coll.call (.setProperty res name val)
      ledger := Function.update w.ledger res
        ((w.ledger res).modifyHead (Json.insert name val)) } where
  stored := by
    intro other r' hr'
    have hr' := (Collector.lookup_modify res (Ressource.setProperty name val) _ other).symm.trans hr'
    dsimp only
    by_cases hother : other = res
    · subst hother
      rw [if_pos rfl, hr] at hr'
      obtain rfl : r.setProperty name val = r' := by simpa using hr'
      -- Both lists have the sample at their heads.
      obtain ⟨t, ht⟩ := h.stored other r hr
      rw [Function.update_self, ← ht]
      unfold Ressource.setProperty
      rw [hv]
      exact List.prefix_append _ t
    · rw [if_neg hother] at hr'
      rw [Function.update_of_ne hother]
      exact h.stored other r' hr'
  complete := by
    intro d hd
    dsimp only
    by_cases hname : d.res = res
    · have hnew := (h.fresh res hres).2 d hd hname
      have hold := h.complete d hd
      rw [hname] at hold ⊢
      rw [Function.update_self]
      cases hl : w.ledger res with
      | nil => simp [hl] at hnew
      | cons s' l =>
          rw [hl] at hnew hold
          have hlt : d.serial < l.length := by simpa using hnew
          rw [List.modifyHead_cons, getElem?_reverse_cons _ hlt]
          rwa [getElem?_reverse_cons _ hlt] at hold
    · rw [Function.update_of_ne hname]
      exact h.complete d hd
  fresh := by
    intro other hmem
    obtain ⟨hlock, hnew⟩ := h.fresh other hmem
    refine ⟨hlock, fun d hd hname => ?_⟩
    have hlt := hnew d hd hname
    dsimp only
    by_cases heq : other = res
    · subst heq
      rwa [Function.update_self, List.length_modifyHead]
    · rwa [Function.update_of_ne heq]

/-- A call that changes no ressource: it names none, or one without a sample. -/
theorem inv_idle {w : World} (h : Inv w) {res : String} {f : Ressource → Ressource}
    (hf : ∀ r, w.coll.ressources.lookup res = some r → f r = r) :
    Inv { w with coll := { w.coll with
      ressources := Collector.modify res f w.coll.ressources } } where
  stored := by
    intro name r hr
    have hr := (Collector.lookup_modify res f w.coll.ressources name).symm.trans hr
    by_cases hname : name = res
    · subst hname
      rw [if_pos rfl] at hr
      obtain ⟨r', hr', rfl⟩ := Option.map_eq_some_iff.mp hr
      rw [hf r' hr']
      exact h.stored name r' hr'
    · rw [if_neg hname] at hr
      exact h.stored name r hr
  complete := h.complete
  fresh := h.fresh

theorem inv_call {w : World} (h : Inv w) (hlock : w.coll.locked = true) {c : Call}
    (hgood : Good w (.call c)) : Inv { w with
      coll := w.coll.call c, ledger := ledgerCall w c, fresh := freshCall w c } := by
  cases c with
  | nextValue res now =>
      show Inv { w with
        coll := w.coll.call (.nextValue res now)
        ledger := match w.coll.ressources.lookup res with
          | none => w.ledger
          | some r => Function.update w.ledger res
              (Json.insert "timestamp" (.int now) (r.v.headD []) :: w.ledger res)
        fresh := if (w.coll.ressources.lookup res).isSome then res :: w.fresh else w.fresh }
      cases hr : w.coll.ressources.lookup res with
      | none => exact inv_idle h (by simp [hr])
      | some r => exact inv_nextValue h hlock now hr
  | setProperty res name val =>
      show Inv { w with
        coll := w.coll.call (.setProperty res name val)
        ledger := match w.coll.ressources.lookup res with
          | none => w.ledger
          | some r =>
              if r.v = [] then w.ledger
              else Function.update w.ledger res
                ((w.ledger res).modifyHead (Json.insert name val)) }
      cases hr : w.coll.ressources.lookup res with
      | none => exact inv_idle h (by simp [hr])
      | some r =>
          dsimp only
          cases hv : r.v with
          | nil =>
              have hidle : ∀ r', w.coll.ressources.lookup res = some r' →
                  r'.setProperty name val = r' := by
                intro r' hr'
                obtain rfl : r = r' := Option.some.inj (hr.symm.trans hr')
                unfold Ressource.setProperty
                rw [hv]
              rw [if_pos rfl]
              exact inv_idle h hidle
          | cons s v =>
              rw [if_neg (List.cons_ne_nil s v)]
              exact inv_setProperty h (hgood hlock) name val hr hv

theorem inv_step {w : World} {a : Move} (h : Inv w) (hgood : Good w a) : Inv (step w a) := by
  cases a with
  | take =>
      show Inv (if w.coll.locked then w else _)
      split
      · exact h
      · exact ⟨h.stored, h.complete, by simp⟩
  | call c =>
      show Inv (if w.coll.locked then _ else w)
      split
      · exact inv_call h ‹_› hgood
      · exact h
  | release => exact ⟨h.stored, h.complete, by simp [step]⟩
  | getAll res since =>
      exact inv_deliver h res since _ fun name hname => by
        simpa using List.mem_filter.mp hname
  | getHistory res since =>
      show Inv (match w.coll.doGetHistory res since with
        | some (.ok _) => { w with delivered := w.delivered ++ deliver w res since }
        | _ => w)
      split
      · rename_i samples hread
        -- The reader holds the lock, so no pass runs, and no ressource is fresh.
        refine inv_deliver h res since w.fresh fun name hname => ⟨hname, ?_⟩
        have hlock := (h.fresh name hname).1
        unfold Collector.doGetHistory at hread
        rw [hlock] at hread
        split at hread
        · exact absurd hread (by simp)
        · exact absurd hread (by simp)
      · exact h

end CompleteSamples

open CompleteSamples

/-- A run whose passes set properties only on samples of their own that `GET /all` has not
read yet delivers complete samples only. -/
theorem always_complete_of_meets (c : Collector) (as : List Move)
    (h : Meets step Good (start c) as) : Always step Complete (start c) as :=
  always_of_meets (fun _ hw => hw.complete) (fun _ _ => inv_step) (start c) as (inv_start c) h

/-- The load collector, with its ressource `avg`. -/
def cpuLoad : Collector where
  ressources := [("avg", { typeName := "cpuload-avg", size := 300 })]

/-- A pass that stamps a sample at `now` and sets the load, with `reads` in between. -/
def loadPass (now load : Int) (reads : List Move) : List Move :=
  [.take, .call (.nextValue "avg" now)] ++ reads
    ++ [.call (.setProperty "avg" "avg1" (.int load)), .release]

theorem always_complete_load :
    Meets step Good (start cpuLoad)
        (loadPass 1000 5 [] ++ loadPass 2000 7 [.getHistory "avg" (-1)] ++ [.getAll "avg" (-1)]) ∧
      Always step Complete (start cpuLoad)
        (loadPass 1000 5 [] ++ loadPass 2000 7 [.getHistory "avg" (-1)] ++ [.getAll "avg" (-1)]) :=
  ⟨by decide, always_complete_of_meets cpuLoad _ (by decide)⟩

/-- `GET /all` reads between `nextValue` and `setProperty`: it delivers the sample of time
2000 with the load 5 of the pass before, and the pass gives it the load 7. -/
theorem stale_sample_delivered :
    ¬ Complete (exec step (start cpuLoad)
      (loadPass 1000 5 [] ++ loadPass 2000 7 [.getAll "avg" (-1)])) := by
  intro h
  have hstale : (⟨"avg", 1, [("timestamp", .int 2000), ("avg1", .int 5)]⟩ : Delivered)
      ∈ (exec step (start cpuLoad)
        (loadPass 1000 5 [] ++ loadPass 2000 7 [.getAll "avg" (-1)])).delivered :=
    .tail _ (.head _)
  have hfinal : some [("timestamp", Json.int 2000), ("avg1", Json.int 7)]
      = some [("timestamp", Json.int 2000), ("avg1", Json.int 5)] := h _ hstale
  simp at hfinal

end WatchedAgent.Proofs
