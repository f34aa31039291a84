import WatchedAgent.Lib.Fallible
import WatchedAgent.Lib.History
import WatchedAgent.Model.Ressource

/-!
# `WatchedAgent.Proofs.Histories`: a ressource and its readers

The calls on a ressource come in passes: a `nextValue`, and the `setProperty` calls up to the
next one. The samples of the passes form a series (`Lib.History`), each an overwritten copy of
the one before. `Faithful` says that a ressource holds the last of them and that its readers
give those of a time on.

* `v_run`: what a ressource holds.
* `faithful_run`: it holds the last samples, and the readers give them as long as their times
  are numbers and the index does not overflow.
* `readable_run`: the calls after which they do.
* `not_faithful`: a text as a time, and `2 ^ 31 + 1` samples.
-/

set_option autoImplicit false

namespace WatchedAgent.Proofs.Histories

open WatchedAgent.Lib (Json)
open WatchedAgent.Lib.Fallible
open WatchedAgent.Lib.History
open WatchedAgent.Model

/-- A call on a ressource. -/
inductive RessourceCall where
  | nextValue (now : Int)
  | setProperty (name : String) (val : Json)

namespace RessourceCall

def isNextValue : RessourceCall → Bool
  | nextValue _ => true
  | setProperty _ _ => false

end RessourceCall

/-- A ressource after a call. -/
def step (r : Ressource) : RessourceCall → Ressource
  | .nextValue now => r.nextValue now
  | .setProperty name val => r.setProperty name val

/-- A new ressource after some calls. -/
def run (typeName : String) (size : Nat) (calls : List RessourceCall) : Ressource :=
  calls.foldl step { typeName, size }

/-! ### Passes -/

/-- A `nextValue` and the properties set before the next one. -/
structure Pass where
  now : Int
  props : List (String × Json)

namespace Pass

/-- A sample overwritten by a pass: first the time, then the properties. -/
def overwrite (p : Pass) (s : Sample) : Sample :=
  p.props.foldl (fun s e => Json.insert e.1 e.2 s) (Json.insert "timestamp" (.int p.now) s)

/-- The calls of a pass. -/
def calls (p : Pass) : List RessourceCall :=
  .nextValue p.now :: p.props.map (fun e => .setProperty e.1 e.2)

end Pass

/-- The properties set before the first `nextValue`, and the passes. -/
def splitCalls : List RessourceCall → List (String × Json) × List Pass
  | [] => ([], [])
  | .nextValue now :: calls => ([], ⟨now, (splitCalls calls).1⟩ :: (splitCalls calls).2)
  | .setProperty name val :: calls => ((name, val) :: (splitCalls calls).1, (splitCalls calls).2)

/-- The passes of some calls. -/
def passesOf (calls : List RessourceCall) : List Pass := (splitCalls calls).2

/-- The samples of some calls, the oldest first: each is the one before, overwritten by a
pass. -/
def samples (calls : List RessourceCall) : List Sample :=
  series [] ((passesOf calls).map Pass.overwrite)

theorem calls_splitCalls (calls : List RessourceCall) :
    (splitCalls calls).1.map (fun e => .setProperty e.1 e.2)
      ++ (splitCalls calls).2.flatMap Pass.calls = calls := by
  induction calls with
  | nil => rfl
  | cons c calls ih =>
      cases c with
      | nextValue now => exact congrArg (List.cons (.nextValue now)) ih
      | setProperty name val => exact congrArg (List.cons (.setProperty name val)) ih

/-- Calls that start with a `nextValue` are the calls of their passes. -/
theorem calls_passesOf (now : Int) (rest : List RessourceCall) :
    (passesOf (.nextValue now :: rest)).flatMap Pass.calls = .nextValue now :: rest :=
  calls_splitCalls (.nextValue now :: rest)

/-- There is a pass for each `nextValue`. -/
theorem length_passesOf (calls : List RessourceCall) :
    (passesOf calls).length = calls.countP RessourceCall.isNextValue := by
  induction calls with
  | nil => rfl
  | cons c calls ih =>
      cases c with
      | nextValue now =>
          show (passesOf calls).length + 1 = _
          rw [ih, List.countP_cons_of_pos rfl]
      | setProperty name val =>
          show (passesOf calls).length = _
          rw [ih, List.countP_cons_of_neg (by simp [RessourceCall.isNextValue])]

/-! ### What a ressource holds -/

/-- A pass inserts a sample, and then changes it in place. -/
theorem foldl_calls (p : Pass) (r : Ressource) : p.calls.foldl step r
    = { r with
        v := (push r.size [] (Json.insert "timestamp" (.int p.now)) r.v).modifyHead
          (fun s => p.props.foldl (fun s e => Json.insert e.1 e.2 s) s) } := by
  have hprops : ∀ (props : List (String × Json)) (r : Ressource),
      (props.map (fun e => RessourceCall.setProperty e.1 e.2)).foldl step r
        = { r with v := r.v.modifyHead (fun s =>
            props.foldl (fun s e => Json.insert e.1 e.2 s) s) } := by
    intro props
    induction props with
    | nil =>
        intro r
        cases r with
        | mk _ _ _ _ v => cases v <;> rfl
    | cons e props ih =>
        intro r
        rw [List.map_cons, List.foldl_cons, ih]
        obtain ⟨_, _, _, _, v⟩ := r
        cases v <;> rfl
  rw [Pass.calls, List.foldl_cons, hprops]
  rfl

/-- The samples after some passes. -/
theorem v_foldl (passes : List Pass) (r : Ressource) :
    ((passes.flatMap Pass.calls).foldl step r).v
      = (passes.map (fun p => (Json.insert "timestamp" (.int p.now),
          fun s => p.props.foldl (fun s e => Json.insert e.1 e.2 s) s))).foldl
          (fun v t => (push r.size [] t.1 v).modifyHead t.2) r.v := by
  induction passes generalizing r with
  | nil => rfl
  | cons p passes ih =>
      rw [List.flatMap_cons, List.foldl_append, ih, foldl_calls, List.map_cons, List.foldl_cons]

/-- A ressource holds the last samples, the newest first. -/
theorem v_run (typeName : String) {size : Nat} (hsize : 0 < size) (now : Int)
    (rest : List RessourceCall) : (run typeName size (.nextValue now :: rest)).v
      = (samples (.nextValue now :: rest)).reverse.take size := by
  unfold run
  conv_lhs => rw [← calls_passesOf now rest]
  rw [v_foldl]
  refine (foldl_turn hsize [] _).trans ?_
  rw [List.map_map]
  rfl

/-- It holds as many samples as there were calls of `nextValue`, up to its size. -/
theorem length_v_run (typeName : String) {size : Nat} (hsize : 0 < size) (now : Int)
    (rest : List RessourceCall) : (run typeName size (.nextValue now :: rest)).v.length
      = min ((RessourceCall.nextValue now :: rest).countP RessourceCall.isNextValue) size := by
  rw [v_run typeName hsize, List.length_take, List.length_reverse, samples, length_series,
    List.length_map, length_passesOf, Nat.min_comm]

/-! ### The readers -/

/-- The time of a sample is a number from `since` on. -/
def atLeast (since : ℚ) (s : Sample) : Bool :=
  ((s.lookup "timestamp").bind Ressource.asDouble).any (fun t => decide (since ≤ t))

/-- The texts joined by commas between brackets. -/
def bracketed (texts : List String) : String := "[\n" ++ ",\n".intercalate texts ++ "\n]\n"

/-- A ressource holds the last samples, as many as there were calls of `nextValue`, up to its
size. -/
def HoldsLast (typeName : String) (size : Nat) (calls : List RessourceCall) : Prop :=
  (run typeName size calls).v.length = min (calls.countP RessourceCall.isNextValue) size ∧
    (run typeName size calls).v = (samples calls).reverse.take size

/-- The readers of a ressource give the samples it holds from a time on. -/
def ReadsBack (r : Ressource) : Prop :=
  ∀ since, r.getHistoryJson since = some (r.v.reverse.filter (atLeast since)) ∧
    ∀ render, r.getHistoryText render since
      = some (bracketed ((r.v.reverse.filter (atLeast since)).map render))

/-- A ressource holds the last samples, and its readers give those from a time on. -/
def Faithful (typeName : String) (size : Nat) (calls : List RessourceCall) : Prop :=
  HoldsLast typeName size calls ∧ ReadsBack (run typeName size calls)

/-- The time of a sample is a number. -/
def Stamped (s : Sample) : Prop :=
  ∀ t, s.lookup "timestamp" = some t → (Ressource.asDouble t).isSome = true

/-- The index of the readers does not overflow, and they can compare the times. -/
def Readable (r : Ressource) : Prop := r.v.length ≤ 0x80000000 ∧ ∀ s ∈ r.v, Stamped s

/-- A time that is a number can be compared. -/
theorem isReported_eq {s : Sample} (h : Stamped s) (since : ℚ) :
    Ressource.isReported since s = some (atLeast since s) := by
  unfold Ressource.isReported atLeast
  cases hlookup : s.lookup "timestamp" with
  | none => rfl
  | some t =>
      obtain ⟨q, hq⟩ := Option.isSome_iff_exists.mp (h t hlookup)
      rw [Option.bind_some]
      dsimp only
      rw [hq]
      rfl

/-- A separator before every text but the first. -/
theorem foldl_separated (sep : String) (ss t : String) (ts : List String) :
    ts.foldl (fun ss t => ss ++ sep ++ t) (ss ++ t) = ss ++ sep.intercalate (t :: ts) := by
  induction ts generalizing ss t with
  | nil => rw [List.foldl_nil, String.intercalate_singleton]
  | cons u ts ih =>
      rw [List.foldl_cons, ih, String.intercalate_cons_cons]
      simp only [String.append_assoc]

/-- The flag of the text reader is set until the first sample is written. -/
theorem foldl_turn_text (since : ℚ) (render : Sample → String) (l : List Sample) :
    (l.foldl (fun (c : String × Bool) s =>
      if atLeast since s then ((if c.2 then c.1 else c.1 ++ ",\n") ++ render s, false) else c)
      ("[\n", true)).1 ++ "\n]\n" = bracketed ((l.filter (atLeast since)).map render) := by
  let turn (c : String × Bool) (s : Sample) : String × Bool :=
    if atLeast since s then ((if c.2 then c.1 else c.1 ++ ",\n") ++ render s, false) else c
  have hlater : ∀ (l : List Sample) (ss : String), (l.foldl turn (ss, false)).1
      = ((l.filter (atLeast since)).map render).foldl (fun ss t => ss ++ ",\n" ++ t) ss := by
    intro l
    induction l with
    | nil => intro ss; rfl
    | cons s l ih =>
        intro ss
        rw [List.foldl_cons, List.filter_cons]
        by_cases hs : atLeast since s = true
        · rw [if_pos hs, List.map_cons, List.foldl_cons, ← ih]
          show (l.foldl turn (if atLeast since s then _ else _)).1 = _
          rw [if_pos hs]
          rfl
        · rw [if_neg hs, ← ih]
          show (l.foldl turn (if atLeast since s then _ else _)).1 = _
          rw [if_neg hs]
  show (l.foldl turn ("[\n", true)).1 ++ _ = _
  unfold bracketed
  induction l with
  | nil => rfl
  | cons s l ih =>
      rw [List.foldl_cons, List.filter_cons]
      by_cases hs : atLeast since s = true
      · have hfirst : turn ("[\n", true) s = ("[\n" ++ render s, false) := if_pos hs
        rw [if_pos hs, List.map_cons, hfirst, hlater, foldl_separated]
      · have hskip : turn ("[\n", true) s = ("[\n", true) := if_neg hs
        rw [if_neg hs, hskip, ih]

theorem getHistoryJson_eq {r : Ressource} (hr : Readable r) (since : ℚ) :
    r.getHistoryJson since = some (r.v.reverse.filter (atLeast since)) := by
  have hfold : ∀ (l out : List Sample), l.foldl
      (fun out s => if atLeast since s then out ++ [s] else out) out
        = out ++ l.filter (atLeast since) := by
    intro l
    induction l with
    | nil => intro out; simp
    | cons s l ih =>
        intro out
        rw [List.foldl_cons, ih, List.filter_cons]
        split <;> simp
  unfold Ressource.getHistoryJson Ressource.visited
  rw [if_pos hr.1, foldlM_of_forall (g := fun out s => if atLeast since s then out ++ [s] else out)
    fun out s hs => by rw [isReported_eq (hr.2 s (List.mem_reverse.mp hs))]; rfl, hfold]
  rfl

theorem getHistoryText_eq {r : Ressource} (hr : Readable r) (render : Sample → String)
    (since : ℚ) :
    r.getHistoryText render since
      = some (bracketed ((r.v.reverse.filter (atLeast since)).map render)) := by
  let turn (c : String × Bool) (s : Sample) : String × Bool :=
    if atLeast since s then ((if c.2 then c.1 else c.1 ++ ",\n") ++ render s, false) else c
  unfold Ressource.getHistoryText Ressource.visited
  rw [if_pos hr.1, foldlM_of_forall (g := turn)
    fun c s hs => by rw [isReported_eq (hr.2 s (List.mem_reverse.mp hs))]; rfl,
    Option.bind_eq_bind, Option.bind_some]
  exact congrArg some (foldl_turn_text since render r.v.reverse)

theorem readsBack_of_readable {r : Ressource} (hr : Readable r) : ReadsBack r :=
  fun since => ⟨getHistoryJson_eq hr since, fun render => getHistoryText_eq hr render since⟩

/-! ### Faithful ressources -/

/-- A time that a call sets is a number. -/
def TimesAreNumbers (calls : List RessourceCall) : Prop :=
  ∀ val, .setProperty "timestamp" val ∈ calls → (Ressource.asDouble val).isSome = true

/-- The times of a sample and of the overwriting properties are numbers. -/
theorem stamped_overwrite {p : Pass} {s : Sample}
    (h : ∀ e ∈ p.props, e.1 = "timestamp" → (Ressource.asDouble e.2).isSome = true) :
    Stamped (p.overwrite s) := by
  have hprops : ∀ (props : List (String × Json)) (s : Sample),
      (∀ e ∈ props, e.1 = "timestamp" → (Ressource.asDouble e.2).isSome = true) →
      Stamped s → Stamped (props.foldl (fun s e => Json.insert e.1 e.2 s) s) := by
    intro props
    induction props with
    | nil => exact fun s _ hs => hs
    | cons e props ih =>
        intro s hprops hs
        refine ih _ (fun e' he' => hprops e' (List.mem_cons_of_mem e he')) fun t ht => ?_
        dsimp only at ht
        by_cases hname : e.1 = "timestamp"
        · rw [hname, Json.lookup_insert_self] at ht
          rw [← Option.some.inj ht]
          exact hprops e List.mem_cons_self hname
        · rw [Json.lookup_insert_of_ne _ _ (Ne.symm hname)] at ht
          exact hs t ht
  refine hprops p.props _ h fun t ht => ?_
  rw [Json.lookup_insert_self] at ht
  rw [← Option.some.inj ht]
  rfl

theorem props_passesOf {calls : List RessourceCall} {p : Pass} (hp : p ∈ passesOf calls)
    {e : String × Json} (he : e ∈ p.props) : .setProperty e.1 e.2 ∈ calls := by
  have hmem : RessourceCall.setProperty e.1 e.2 ∈ (passesOf calls).flatMap Pass.calls :=
    List.mem_flatMap.mpr ⟨p, hp, List.mem_cons_of_mem _ (List.mem_map.mpr ⟨e, he, rfl⟩)⟩
  rw [← calls_splitCalls calls]
  exact List.mem_append_right _ hmem

/-- Every sample of a series has the property that each change gives. -/
theorem forall_mem_series {ρ : Type} {P : ρ → Prop} {fs : List (ρ → ρ)}
    (h : ∀ f ∈ fs, ∀ s, P (f s)) (prev : ρ) : ∀ s ∈ series prev fs, P s := by
  induction fs generalizing prev with
  | nil => exact fun s hs => absurd hs List.not_mem_nil
  | cons f fs ih =>
      intro s hs
      rcases List.mem_cons.mp hs with rfl | hs
      · exact h f List.mem_cons_self prev
      · exact ih (fun g hg => h g (List.mem_cons_of_mem f hg)) _ s hs

/-- The samples a run keeps have numbers for their times where the calls set no other times. -/
theorem stamped_run (typeName : String) {size : Nat} (hsize : 0 < size) {now : Int}
    {rest : List RessourceCall} (htimes : TimesAreNumbers (.nextValue now :: rest)) :
    ∀ s ∈ (run typeName size (.nextValue now :: rest)).v, Stamped s := by
  intro s hs
  rw [v_run typeName hsize] at hs
  refine forall_mem_series (P := Stamped) ?_ [] s (List.mem_reverse.mp (List.mem_of_mem_take hs))
  intro f hf s
  obtain ⟨p, hp, rfl⟩ := List.mem_map.mp hf
  refine stamped_overwrite fun e he hname => htimes e.2 ?_
  rw [← hname]
  exact props_passesOf hp he

/-- The ressource can be read where the calls set no other times than numbers. -/
theorem readable_run (typeName : String) {size : Nat} (hsize : 0 < size) {now : Int}
    {rest : List RessourceCall}
    (hbound : (RessourceCall.nextValue now :: rest).countP RessourceCall.isNextValue ≤ 0x80000000 ∨
      size ≤ 0x80000000) (htimes : TimesAreNumbers (.nextValue now :: rest)) :
    Readable (run typeName size (.nextValue now :: rest)) := by
  constructor
  · rw [length_v_run typeName hsize]
    exact min_le_iff.mpr hbound
  · exact stamped_run typeName hsize htimes

/-- For every size and all calls that start with a `nextValue`, the ressource holds the last
samples, and it reads back what it can read. -/
theorem faithful_run (typeName : String) (size : Nat) (hsize : 0 < size) (now : Int)
    (rest : List RessourceCall) :
    HoldsLast typeName size (.nextValue now :: rest) ∧
      (Readable (run typeName size (.nextValue now :: rest)) →
        ReadsBack (run typeName size (.nextValue now :: rest))) :=
  ⟨⟨length_v_run typeName hsize now rest, v_run typeName hsize now rest⟩, readsBack_of_readable⟩

theorem faithful_run_two : Faithful "load" 2
    [.nextValue 10, .setProperty "load" (.real "0.5"), .nextValue 20, .nextValue 30] :=
  have hrun := faithful_run "load" 2 (by decide) 10
    [.setProperty "load" (.real "0.5"), .nextValue 20, .nextValue 30]
  ⟨hrun.1, hrun.2 (readable_run "load" (by decide) (.inr (by decide)) fun val hval => by
    simp at hval)⟩

/-! ### Where it is not faithful -/

/-- As many passes without properties as there are calls of `nextValue`. -/
theorem passesOf_replicate (n : Nat) (now : Int) :
    passesOf (List.replicate n (.nextValue now)) = List.replicate n ⟨now, []⟩ := by
  have hsplit : splitCalls (List.replicate n (.nextValue now))
      = ([], List.replicate n ⟨now, []⟩) := by
    induction n with
    | zero => rfl
    | succ n ih =>
        rw [List.replicate_succ, splitCalls, ih]
        rfl
  exact congrArg Prod.snd hsplit

/-- The sample of a time and nothing else, over and over. -/
theorem series_replicate (n : Nat) (now : Int) :
    series [("timestamp", .int now)] (List.replicate n (Pass.overwrite ⟨now, []⟩))
      = List.replicate n [("timestamp", Json.int now)] := by
  induction n with
  | zero => rfl
  | succ n ih =>
      have hsame : Pass.overwrite ⟨now, []⟩ [("timestamp", .int now)]
          = [("timestamp", Json.int now)] := by
        show Json.insert "timestamp" (.int now) [("timestamp", .int now)] = _
        rfl
      rw [List.replicate_succ, series, hsame, ih, List.replicate_succ]

/-- With more samples than an `int` counts the readers give none of them. -/
theorem not_faithful_of_lt {n : Nat} (hn : 0x80000000 < n) (typeName : String) :
    ¬ Faithful typeName n (List.replicate n (.nextValue 0)) := by
  intro h
  obtain ⟨m, rfl⟩ : ∃ m, n = m + 1 := ⟨n - 1, by omega⟩
  rw [List.replicate_succ] at h
  obtain ⟨⟨_, hv⟩, hread⟩ := h
  have hsamples : samples (.nextValue 0 :: List.replicate m (.nextValue 0))
      = List.replicate (m + 1) [("timestamp", Json.int 0)] := by
    unfold samples
    rw [← List.replicate_succ, passesOf_replicate, List.map_replicate, List.replicate_succ, series]
    exact (congrArg (List.cons _) (series_replicate m 0)).trans List.replicate_succ.symm
  rw [hsamples, List.reverse_replicate, List.take_of_length_le (by simp)] at hv
  have hnone := (hread 0).1
  unfold Ressource.getHistoryJson Ressource.visited at hnone
  rw [hv, if_neg (by rw [List.length_replicate]; omega), List.reverse_replicate] at hnone
  have hall : (List.replicate (m + 1) [("timestamp", Json.int 0)]).filter (atLeast 0)
      = List.replicate (m + 1) [("timestamp", Json.int 0)] := by
    rw [List.filter_replicate_of_pos]
    rfl
  rw [hall, List.replicate_succ] at hnone
  cases hnone

/-- A text as a time makes the readers throw, and with `2 ^ 31 + 1` samples they give none. -/
theorem not_faithful :
    ¬ Faithful "load" 1 [.nextValue 5, .setProperty "timestamp" (.str "now")]
      ∧ ¬ Faithful "load" 0x80000001 (List.replicate 0x80000001 (.nextValue 0)) := by
  constructor
  · intro h
    have hthrow : (run "load" 1 [.nextValue 5, .setProperty "timestamp" (.str "now")]).getHistoryJson 0
        = none := rfl
    have hread := (h.2 0).1
    rw [hthrow] at hread
    cases hread
  · exact not_faithful_of_lt (by decide) "load"

end WatchedAgent.Proofs.Histories
