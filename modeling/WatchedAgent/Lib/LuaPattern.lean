import Mathlib.Data.List.Infix
import WatchedAgent.Lib.Decimal

/-!
# `WatchedAgent.Lib.LuaPattern`: patterns of Lua

The part of the pattern language that scripts read text with: the classes `%a` and `%d`,
`.`, literal characters, the repetitions `+` and `*`, and one group at the end. A repetition
takes as much as it can, and gives back what the rest needs, so `splits` lists the ways a
text can be cut in the order Lua tries them.

* `infix_of_luaMatch`: what a match gives stands in the text.
* `matchIn_run` and `luaMatch_plus`: a repeated class gives the first run of its characters.
* `First.last`: `.*` looks for the last place where the rest matches.
* `matchIn_literal`: a literal pattern is found exactly where it stands in the text.
* `gmatch_digits`, `digitRuns_skip` and `digitRuns_run`: `%d+` gives the runs of digits one
  after the other.
-/

set_option autoImplicit false

namespace WatchedAgent.Lib.Lua

open WatchedAgent.Lib.Text (isDigit)

/-- How often an item is taken. -/
inductive Rep where
  | one
  | plus
  | star
  deriving DecidableEq

/-- A character class with its repetition. -/
structure Item where
  accepts : Char → Bool
  rep : Rep

/-- `isalpha` of the C locale. -/
def isAlpha (c : Char) : Bool := ('a' ≤ c && c ≤ 'z') || ('A' ≤ c && c ≤ 'Z')

theorem isDigit_of_isAlpha {c : Char} (h : isAlpha c = true) : isDigit c = false := by
  by_contra hdigit
  simp only [isDigit, isAlpha, Bool.not_eq_false, Bool.and_eq_true, Bool.or_eq_true,
    decide_eq_true_eq] at h hdigit
  rcases h with h | h
  · exact absurd (Char.le_trans h.1 hdigit.2) (by decide)
  · exact absurd (Char.le_trans h.1 hdigit.2) (by decide)

/-- The class after a `%`. Another character stands for itself. -/
def classOf (c : Char) : Char → Bool :=
  if c = 'a' then isAlpha else if c = 'd' then isDigit else (· == c)

/-- The items of a pattern. -/
def items : List Char → List Item
  | '%' :: c :: '+' :: cs => ⟨classOf c, .plus⟩ :: items cs
  | '%' :: c :: '*' :: cs => ⟨classOf c, .star⟩ :: items cs
  | '%' :: c :: cs => ⟨classOf c, .one⟩ :: items cs
  | '.' :: '+' :: cs => ⟨fun _ => true, .plus⟩ :: items cs
  | '.' :: '*' :: cs => ⟨fun _ => true, .star⟩ :: items cs
  | '.' :: cs => ⟨fun _ => true, .one⟩ :: items cs
  | c :: cs => ⟨(· == c), .one⟩ :: items cs
  | [] => []

/-- A pattern: the items before its group, and those of the group. Without parentheses the
whole match is the group. -/
structure Pattern where
  before : List Item := []
  group : List Item

/-- A pattern with no group, or with one that ends it. -/
def compile (pattern : String) : Pattern :=
  let cs := pattern.toList
  if '(' ∈ cs then
    { before := items (cs.takeWhile (· != '('))
      group := items (((cs.dropWhile (· != '(')).drop 1).takeWhile (· != ')')) }
  else { group := items cs }

/-! ### Matching -/

/-- The cuts of a text where the first part has only characters of `p`, the longest first. -/
def starSplits (p : Char → Bool) : List Char → List (List Char × List Char)
  | [] => [([], [])]
  | c :: cs =>
      if p c then (starSplits p cs).map (fun s => (c :: s.1, s.2)) ++ [([], c :: cs)]
      else [([], c :: cs)]

/-- The cuts an item allows. -/
def Item.splits (i : Item) (cs : List Char) : List (List Char × List Char) :=
  match i.rep, cs with
  | .star, cs => starSplits i.accepts cs
  | .plus, c :: cs => if i.accepts c then (starSplits i.accepts cs).map (fun s => (c :: s.1, s.2))
      else []
  | .one, c :: cs => if i.accepts c then [([c], cs)] else []
  | _, [] => []

/-- The cuts a list of items allows. -/
def splits : List Item → List Char → List (List Char × List Char)
  | [], cs => [([], cs)]
  | i :: is, cs => (i.splits cs).flatMap (fun s => (splits is s.2).map (fun t => (s.1 ++ t.1, t.2)))

/-- The group of the match at the start of a text. -/
def Pattern.matchAt (p : Pattern) (cs : List Char) : Option (List Char) :=
  ((splits p.before cs).flatMap (fun s => (splits p.group s.2).map Prod.fst)).head?

/-- The group of the first match in a text. -/
def Pattern.matchIn (p : Pattern) : List Char → Option (List Char)
  | [] => p.matchAt []
  | c :: cs => (p.matchAt (c :: cs)).or (p.matchIn cs)

/-- `s:match(pattern)`, `none` for `nil`. -/
def luaMatch (pattern s : String) : Option String :=
  ((compile pattern).matchIn s.toList).map String.ofList

/-- At most `n` matches, each after the one before it. -/
def Pattern.matches (p : Pattern) : Nat → List Char → List (List Char)
  | 0, _ => []
  | n + 1, cs =>
      match p.matchAt cs with
      | some m => m :: p.matches n (cs.drop (max 1 m.length))
      | none =>
          match cs with
          | [] => []
          | _ :: cs => p.matches n cs

/-- The values of `string.gmatch(s, pattern)`, for a pattern without parentheses that no empty
text matches. -/
def gmatch (pattern s : String) : List String :=
  ((compile pattern).matches (s.length + 1) s.toList).map String.ofList

example : luaMatch "(%a+_%a+)" "cancelled_write_bytes: 5" = some "cancelled_write" := by decide
example : gmatch "%d+" "10 (sh) S -1 7" = ["10", "1", "7"] := by decide

/-! ### What a cut is -/

theorem of_mem_starSplits {p : Char → Bool} {cs : List Char} {s : List Char × List Char}
    (h : s ∈ starSplits p cs) : s.1 ++ s.2 = cs := by
  induction cs generalizing s with
  | nil =>
      obtain rfl := List.mem_singleton.mp h
      rfl
  | cons c cs ih =>
      unfold starSplits at h
      split at h
      · rcases List.mem_append.mp h with h | h
        · obtain ⟨t, ht, rfl⟩ := List.mem_map.mp h
          rw [List.cons_append, ih ht]
        · obtain rfl := List.mem_singleton.mp h
          rfl
      · obtain rfl := List.mem_singleton.mp h
        rfl

theorem of_mem_itemSplits {i : Item} {cs : List Char} {s : List Char × List Char}
    (h : s ∈ i.splits cs) : s.1 ++ s.2 = cs := by
  unfold Item.splits at h
  split at h
  · exact of_mem_starSplits h
  · split at h
    · obtain ⟨t, ht, rfl⟩ := List.mem_map.mp h
      rw [List.cons_append, of_mem_starSplits ht]
    · exact absurd h List.not_mem_nil
  · split at h
    · obtain rfl := List.mem_singleton.mp h
      rfl
    · exact absurd h List.not_mem_nil
  · exact absurd h List.not_mem_nil

/-- A cut is one of the text. -/
theorem of_mem_splits {is : List Item} {cs : List Char} {s : List Char × List Char}
    (h : s ∈ splits is cs) : s.1 ++ s.2 = cs := by
  induction is generalizing cs s with
  | nil =>
      obtain rfl := List.mem_singleton.mp h
      rfl
  | cons i is ih =>
      obtain ⟨t, ht, h⟩ := List.mem_flatMap.mp h
      obtain ⟨u, hu, rfl⟩ := List.mem_map.mp h
      rw [List.append_assoc, ih hu, of_mem_itemSplits ht]

theorem infix_of_matchAt {p : Pattern} {cs m : List Char} (h : p.matchAt cs = some m) :
    m <:+: cs := by
  obtain ⟨s, hs, h⟩ := List.mem_flatMap.mp (List.mem_of_head? h)
  obtain ⟨t, ht, rfl⟩ := List.mem_map.mp h
  exact ⟨s.1, t.2, by rw [List.append_assoc, of_mem_splits ht, of_mem_splits hs]⟩

theorem infix_of_matchIn {p : Pattern} {cs m : List Char} (h : p.matchIn cs = some m) :
    m <:+: cs := by
  induction cs with
  | nil => exact infix_of_matchAt h
  | cons c cs ih =>
      rcases Option.or_eq_some_iff.mp h with h | ⟨-, h⟩
      · exact infix_of_matchAt h
      · exact (ih h).trans (List.infix_cons (List.infix_refl cs))

/-- What a match gives stands in the text. -/
theorem infix_of_luaMatch {pattern s m : String} (h : luaMatch pattern s = some m) :
    m.toList <:+: s.toList := by
  obtain ⟨cs, hcs, rfl⟩ := Option.map_eq_some_iff.mp h
  rw [String.toList_ofList]
  exact infix_of_matchIn hcs

/-! ### The first cut -/

/-- The cut Lua takes when nothing follows. -/
def First (is : List Item) (cs : List Char) (s : List Char × List Char) : Prop :=
  (splits is cs).head? = some s

theorem first_nil (cs : List Char) : First [] cs ([], cs) := rfl

/-- The head of a flattened list, where the first element gives something. -/
theorem head?_flatMap {α β : Type} {f : α → List β} {l : List α} {a : α} {b : β}
    (ha : l.head? = some a) (hb : (f a).head? = some b) : (l.flatMap f).head? = some b := by
  cases l with
  | nil => exact absurd ha (by simp)
  | cons x l =>
      obtain rfl : x = a := Option.some.inj ha
      rw [List.flatMap_cons, List.head?_append, hb]
      rfl

/-- The first cut of an item goes on with the first cut of the rest. -/
theorem First.item {i : Item} {is : List Item} {cs : List Char} {s t : List Char × List Char}
    (hs : (i.splits cs).head? = some s) (ht : First is s.2 t) :
    First (i :: is) cs (s.1 ++ t.1, t.2) := by
  refine head?_flatMap hs ?_
  rw [List.head?_map, ht]
  rfl

/-- The longest run comes first. -/
theorem head?_starSplits {p : Char → Bool} {run rest : List Char} (hrun : ∀ c ∈ run, p c = true)
    (hrest : ∀ c ∈ rest.head?, p c = false) :
    (starSplits p (run ++ rest)).head? = some (run, rest) := by
  induction run with
  | nil =>
      cases rest with
      | nil => rfl
      | cons c rest =>
          rw [List.nil_append, starSplits, if_neg (by simp [hrest c rfl])]
          rfl
  | cons c run ih =>
      have htail := ih fun x hx => hrun x (List.mem_cons_of_mem c hx)
      rw [List.cons_append, starSplits, if_pos (hrun c List.mem_cons_self), List.head?_append,
        List.head?_map, htail]
      rfl

theorem First.star {p : Char → Bool} {l : List Item} {u v : List Char}
    {t : List Char × List Char} (hrun : ∀ c ∈ u, p c = true)
    (hrest : ∀ c ∈ v.head?, p c = false) (ht : First l v t) :
    First (⟨p, .star⟩ :: l) (u ++ v) (u ++ t.1, t.2) :=
  First.item (i := ⟨p, .star⟩) (s := (u, v)) (head?_starSplits hrun hrest) ht

theorem First.plus {p : Char → Bool} {l : List Item} {u v : List Char}
    {t : List Char × List Char} (hne : u ≠ []) (hrun : ∀ c ∈ u, p c = true)
    (hrest : ∀ c ∈ v.head?, p c = false) (ht : First l v t) :
    First (⟨p, .plus⟩ :: l) (u ++ v) (u ++ t.1, t.2) := by
  refine First.item (i := ⟨p, .plus⟩) (s := (u, v)) ?_ ht
  cases u with
  | nil => exact absurd rfl hne
  | cons c u =>
      have htail := head?_starSplits (fun x hx => hrun x (List.mem_cons_of_mem c hx)) hrest
      show (if p c then (starSplits p (u ++ v)).map _ else []).head? = _
      rw [if_pos (hrun c List.mem_cons_self), List.head?_map, htail]
      rfl

theorem First.one {p : Char → Bool} {is : List Item} {c : Char} {cs : List Char}
    {t : List Char × List Char} (hc : p c = true) (ht : First is cs t) :
    First (⟨p, .one⟩ :: is) (c :: cs) (c :: t.1, t.2) :=
  First.item (i := ⟨p, .one⟩) (s := ([c], cs))
    (show (if p c then [([c], cs)] else []).head? = _ by rw [if_pos hc]; rfl) ht

/-- A character that is not in the text is not matched. -/
theorem splits_one_of_not_mem {c : Char} {is : List Item} {cs : List Char} (h : c ∉ cs) :
    splits (⟨(· == c), .one⟩ :: is) cs = [] := by
  cases cs with
  | nil => rfl
  | cons x cs =>
      have hx : (x == c) = false := by
        rw [beq_eq_false_iff_ne]
        rintro rfl
        exact h List.mem_cons_self
      show (if x == c then [([x], cs)] else []).flatMap _ = []
      rw [hx]
      rfl

/-- An item that accepts everything takes nothing, where the rest matches here and nowhere
later. -/
theorem First.last_start {is : List Item} {cs : List Char} {t : List Char × List Char}
    (ht : First is cs t) (hfail : ∀ c rest, cs = c :: rest → ∀ u, u <:+ rest → splits is u = []) :
    First (⟨fun _ => true, .star⟩ :: is) cs t := by
  show ((starSplits (fun _ => true) cs).flatMap
    (fun s => (splits is s.2).map (fun u => (s.1 ++ u.1, u.2)))).head? = _
  cases cs with
  | nil =>
      refine head?_flatMap (a := ([], [])) rfl ?_
      rw [List.head?_map, ht]
      rfl
  | cons c rest =>
      -- Every longer run leaves a text where the rest fails.
      have hnone : ((starSplits (fun _ => true) rest).map (fun s => (c :: s.1, s.2))).flatMap
          (fun s => (splits is s.2).map (fun u => (s.1 ++ u.1, u.2))) = [] := by
        rw [List.flatMap_eq_nil_iff]
        intro s hs
        obtain ⟨u, hu, rfl⟩ := List.mem_map.mp hs
        rw [hfail c rest rfl u.2 ⟨u.1, of_mem_starSplits hu⟩, List.map_nil]
      rw [starSplits, if_pos rfl, List.flatMap_append, hnone, List.nil_append,
        List.flatMap_singleton, List.head?_map, ht]
      rfl

/-- An item that accepts everything looks for the last place where the rest matches. -/
theorem First.last {is : List Item} {a cs : List Char} {t : List Char × List Char}
    (ht : First is cs t) (hfail : ∀ c rest, cs = c :: rest → ∀ u, u <:+ rest → splits is u = []) :
    First (⟨fun _ => true, .star⟩ :: is) (a ++ cs) (a ++ t.1, t.2) := by
  induction a with
  | nil => exact First.last_start ht hfail
  | cons c a ih =>
      have hmap : ∀ l : List (List Char × List Char),
          (l.map (fun s => (c :: s.1, s.2))).flatMap
            (fun s => (splits is s.2).map (fun u => (s.1 ++ u.1, u.2)))
          = (l.flatMap (fun s => (splits is s.2).map (fun u => (s.1 ++ u.1, u.2)))).map
              (fun s => (c :: s.1, s.2)) := by
        intro l
        rw [List.flatMap_map, List.map_flatMap]
        simp only [List.map_map]
        rfl
      have htail : ((starSplits (fun _ => true) (a ++ cs)).flatMap
        (fun s => (splits is s.2).map (fun u => (s.1 ++ u.1, u.2)))).head?
          = some (a ++ t.1, t.2) := ih
      show ((starSplits (fun _ => true) (c :: (a ++ cs))).flatMap
        (fun s => (splits is s.2).map (fun u => (s.1 ++ u.1, u.2)))).head? = _
      rw [starSplits, if_pos rfl, List.flatMap_append, hmap, List.head?_append, List.head?_map,
        htail]
      rfl

theorem matchAt_of_first {p : Pattern} {cs : List Char} {s t : List Char × List Char}
    (hs : First p.before cs s) (ht : First p.group s.2 t) : p.matchAt cs = some t.1 := by
  refine head?_flatMap hs ?_
  rw [List.head?_map, ht]
  rfl

theorem matchIn_of_matchAt {p : Pattern} {cs m : List Char} (h : p.matchAt cs = some m) :
    p.matchIn cs = some m := by
  cases cs with
  | nil => exact h
  | cons c cs =>
      rw [Pattern.matchIn, h]
      rfl

/-! ### Runs of a class -/

section Runs
variable {p : Char → Bool} {is : List Item}

/-- A pattern that starts with a class skips what is not in it. -/
theorem matchIn_skip {pre : List Char} (hpre : ∀ c ∈ pre, p c = false) (cs : List Char) :
    (Pattern.mk [] (⟨p, .plus⟩ :: is)).matchIn (pre ++ cs)
      = (Pattern.mk [] (⟨p, .plus⟩ :: is)).matchIn cs := by
  induction pre with
  | nil => rfl
  | cons c pre ih =>
      have hnone : (Pattern.mk [] (⟨p, .plus⟩ :: is)).matchAt (c :: (pre ++ cs)) = none := by
        have hitem : Item.splits ⟨p, .plus⟩ (c :: (pre ++ cs)) = [] := by
          show (if p c then _ else []) = []
          rw [if_neg (by simp [hpre c List.mem_cons_self])]
        show (((splits [] (c :: (pre ++ cs)))).flatMap (fun s =>
          (((Item.splits ⟨p, .plus⟩ s.2).flatMap _).map Prod.fst))).head? = none
        rw [splits, List.flatMap_singleton, hitem]
        rfl
      rw [List.cons_append, Pattern.matchIn, hnone, Option.none_or,
        ih fun x hx => hpre x (List.mem_cons_of_mem c hx)]

theorem matchIn_nil_plus : (Pattern.mk [] (⟨p, .plus⟩ :: is)).matchIn [] = none := rfl

/-- A repeated class, with what follows it, matches at the first run. -/
theorem matchIn_run {a u v : List Char} {t : List Char × List Char}
    (hpre : ∀ c ∈ a, p c = false) (hne : u ≠ []) (hrun : ∀ c ∈ u, p c = true)
    (hrest : ∀ c ∈ v.head?, p c = false) (ht : First is v t) :
    (Pattern.mk [] (⟨p, .plus⟩ :: is)).matchIn (a ++ (u ++ v)) = some (u ++ t.1) := by
  rw [matchIn_skip hpre]
  exact matchIn_of_matchAt (matchAt_of_first (p := ⟨[], ⟨p, .plus⟩ :: is⟩) (first_nil _)
    (First.plus hne hrun hrest ht))

/-- The match of a repeated class at the start of a text. -/
theorem matchAt_plus (cs : List Char) :
    (Pattern.mk [] [⟨p, .plus⟩]).matchAt cs
      = if cs.takeWhile p = [] then none else some (cs.takeWhile p) := by
  cases cs with
  | nil => rfl
  | cons c cs =>
      cases hc : p c with
      | false =>
          have hitem : Item.splits ⟨p, .plus⟩ (c :: cs) = [] :=
            show (if p c then _ else []) = [] by rw [if_neg (by simp [hc])]
          rw [List.takeWhile_cons_of_neg (by simp [hc]), if_pos rfl]
          show ((splits [] (c :: cs)).flatMap (fun s =>
            ((Item.splits ⟨p, .plus⟩ s.2).flatMap _).map Prod.fst)).head? = none
          rw [splits, List.flatMap_singleton, hitem]
          rfl
      | true =>
          rw [List.takeWhile_cons_of_pos hc, if_neg (List.cons_ne_nil _ _)]
          have hrest : ∀ x ∈ (cs.dropWhile p).head?, p x = false := by
            intro x hx
            have hhead := List.head?_dropWhile_not p cs
            rw [hx] at hhead
            simpa using hhead
          have hfirst := First.plus (l := []) (List.cons_ne_nil c (cs.takeWhile p))
            (fun x hx => (List.mem_cons.mp hx).elim (fun h => h ▸ hc) List.mem_takeWhile_imp)
            hrest (first_nil _)
          rw [List.append_nil, List.cons_append, List.takeWhile_append_dropWhile] at hfirst
          exact matchAt_of_first (p := ⟨[], [⟨p, .plus⟩]⟩) (first_nil _) hfirst

/-- A repeated class gives the first run, if there is one. -/
theorem matchIn_plus (cs : List Char) : (Pattern.mk [] [⟨p, .plus⟩]).matchIn cs
    = if cs.any p then some ((cs.dropWhile (fun c => !p c)).takeWhile p) else none := by
  have hsplit := List.takeWhile_append_dropWhile (p := fun c => !p c) (l := cs)
  have hpre : ∀ c ∈ cs.takeWhile (fun c => !p c), p c = false := by
    intro c hc
    simpa using List.mem_takeWhile_imp hc
  conv_lhs => rw [← hsplit, matchIn_skip hpre]
  cases hrest : cs.dropWhile (fun c => !p c) with
  | nil =>
      have hnone : cs.any p = false := by
        rw [hrest, List.append_nil] at hsplit
        rw [List.any_eq_false]
        intro c hc
        rw [← hsplit] at hc
        simp [hpre c hc]
      rw [hnone, matchIn_nil_plus]
      rfl
  | cons c rest =>
      have hc : p c = true := by
        have hhead := List.head?_dropWhile_not (fun c => !p c) cs
        rw [hrest] at hhead
        simpa using hhead
      have hany : cs.any p = true := by
        rw [List.any_eq_true]
        exact ⟨c, by rw [← hsplit, hrest]; simp, hc⟩
      have hat := matchAt_plus (p := p) (c :: rest)
      rw [List.takeWhile_cons_of_pos hc, if_neg (List.cons_ne_nil _ _)] at hat
      rw [hany, if_pos rfl, List.takeWhile_cons_of_pos hc]
      exact matchIn_of_matchAt hat

/-- The first run of a class in a text. -/
def firstRun (p : Char → Bool) (cs : List Char) : List Char :=
  (cs.dropWhile (fun c => !p c)).takeWhile p

theorem mem_of_mem_firstRun {cs : List Char} {c : Char} (h : c ∈ firstRun p cs) : c ∈ cs :=
  (List.dropWhile_suffix _).subset ((List.takeWhile_prefix p).subset h)

/-- What comes after the first run does not matter. -/
theorem firstRun_append {pre rest : List Char} {c : Char} (hpre : ∃ x ∈ pre, p x = true)
    (hc : p c = false) : firstRun p (pre ++ c :: rest) = firstRun p pre := by
  have hnot : ¬ pre.dropWhile (fun c => !p c) = [] := by
    rw [List.dropWhile_eq_nil_iff]
    intro hall
    obtain ⟨x, hx, hpx⟩ := hpre
    simpa [hpx] using hall x hx
  unfold firstRun
  rw [List.dropWhile_append, if_neg (by simpa using hnot)]
  -- The run ends before `c`, if not earlier.
  generalize pre.dropWhile (fun c => !p c) = run
  induction run with
  | nil => simp [hc]
  | cons x run ih => rw [List.cons_append, List.takeWhile_cons, List.takeWhile_cons, ih]

/-- Nothing of the class before. -/
theorem firstRun_skip {pre : List Char} (hpre : ∀ c ∈ pre, p c = false) (cs : List Char) :
    firstRun p (pre ++ cs) = firstRun p cs := by
  unfold firstRun
  rw [List.dropWhile_append_of_pos fun c hc => by simp [hpre c hc]]

end Runs

/-- A repeated class gives the first run. -/
theorem luaMatch_plus {pattern s : String} {p : Char → Bool}
    (hpattern : compile pattern = ⟨[], [⟨p, .plus⟩]⟩) (h : ∃ c ∈ s.toList, p c = true) :
    luaMatch pattern s = some (String.ofList (firstRun p s.toList)) := by
  unfold luaMatch
  rw [hpattern, matchIn_plus, if_pos (List.any_eq_true.mpr h)]
  rfl

/-- The first number of a text, printed in it, is read back. -/
theorem luaMatch_number {s : String} {n : Nat} {pre rest : List Char}
    (hs : s.toList = pre ++ (Nat.toDigits 10 n ++ rest)) (hpre : ∀ c ∈ pre, isDigit c = false)
    (hrest : ∀ c ∈ rest.head?, isDigit c = false) :
    (luaMatch "(%d+)" s).bind Text.tonumber = some (n : ℚ) := by
  have hpattern : compile "(%d+)" = ⟨[], [⟨isDigit, .plus⟩]⟩ := rfl
  have hmatch := matchIn_run hpre Nat.toDigits_ne_nil (Text.isDigit_toDigits n) hrest
    (first_nil rest)
  unfold luaMatch
  rw [hpattern, hs, hmatch, List.append_nil]
  exact Text.tonumber_toDigits String.toList_ofList

/-- The first word of a text that goes on with something else. -/
theorem luaMatch_word {s : String} {a b : List Char} {c : Char}
    (hs : s.toList = a ++ c :: b) (hpre : ∃ x ∈ a, isAlpha x = true)
    (hc : isAlpha c = false) :
    luaMatch "(%a+)" s = some (String.ofList (firstRun isAlpha a)) := by
  obtain ⟨x, hx, halpha⟩ := hpre
  rw [luaMatch_plus (p := isAlpha) rfl ⟨x, by rw [hs]; exact List.mem_append_left _ hx, halpha⟩, hs,
    firstRun_append ⟨x, hx, halpha⟩ hc]

/-- What the pattern of a word gives has only letters. -/
theorem isAlpha_of_luaMatch {s m : String} (h : luaMatch "(%a+)" s = some m) :
    ∀ c ∈ m.toList, isAlpha c = true := by
  have hpattern : compile "(%a+)" = ⟨[], [⟨isAlpha, .plus⟩]⟩ := rfl
  unfold luaMatch at h
  rw [hpattern, matchIn_plus] at h
  split at h
  · obtain rfl := Option.some.inj h
    rw [String.toList_ofList]
    exact fun c hc => List.mem_takeWhile_imp hc
  · exact absurd h (by simp)

/-! ### Literal patterns -/

/-- The items of a literal text. -/
def literal (w : List Char) : List Item := w.map (fun c => ⟨(· == c), .one⟩)

theorem splits_literal (w cs : List Char) : splits (literal w) cs
    = if w <+: cs then [(w, cs.drop w.length)] else [] := by
  induction w generalizing cs with
  | nil => simp [literal, splits]
  | cons c w ih =>
      show (Item.splits ⟨(· == c), .one⟩ cs).flatMap _ = _
      cases cs with
      | nil => simp [Item.splits]
      | cons x cs =>
          show (if x == c then [([x], cs)] else []).flatMap
            (fun s => (splits (literal w) s.2).map (fun t => (s.1 ++ t.1, t.2))) = _
          by_cases hx : x = c
          · subst hx
            rw [if_pos (by simp), List.flatMap_singleton, ih]
            simp only [List.cons_prefix_cons, true_and, List.length_cons, List.drop_succ_cons]
            split <;> rfl
          · rw [if_neg (by simpa using hx),
              if_neg (fun h => hx (List.cons_prefix_cons.mp h).1.symm)]
            rfl

/-- A literal pattern is found exactly where it stands in the text. -/
theorem matchIn_literal (w cs : List Char) :
    (Pattern.mk [] (literal w)).matchIn cs = if w <:+: cs then some w else none := by
  have hat : ∀ cs, (Pattern.mk [] (literal w)).matchAt cs
      = if w <+: cs then some w else none := by
    intro cs
    show (((splits [] cs)).flatMap (fun s => (splits (literal w) s.2).map Prod.fst)).head? = _
    rw [splits, List.flatMap_singleton, splits_literal]
    split <;> rfl
  induction cs with
  | nil =>
      rw [Pattern.matchIn, hat]
      simp only [List.prefix_nil, List.infix_nil]
  | cons c cs ih =>
      rw [Pattern.matchIn, hat, ih]
      by_cases hpre : w <+: c :: cs
      · rw [if_pos hpre, if_pos hpre.isInfix]
        rfl
      · rw [if_neg hpre, Option.none_or]
        simp only [List.infix_cons_iff, hpre, false_or]

/-! ### Runs of digits -/

theorem matches_of_some {p : Pattern} {cs m : List Char} (h : p.matchAt cs = some m) (n : Nat) :
    p.matches (n + 1) cs = m :: p.matches n (cs.drop (max 1 m.length)) := by
  rw [Pattern.matches.eq_def]
  dsimp only
  rw [h]

theorem matches_of_none {p : Pattern} {c : Char} {cs : List Char} (h : p.matchAt (c :: cs) = none)
    (n : Nat) : p.matches (n + 1) (c :: cs) = p.matches n cs := by
  rw [Pattern.matches.eq_def]
  dsimp only
  rw [h]

/-- Fuel that is more than the length of the text is enough. -/
theorem matches_fuel (p : Char → Bool) {n m : Nat} {cs : List Char} (hn : cs.length < n)
    (hm : cs.length < m) :
    (Pattern.mk [] [⟨p, .plus⟩]).matches n cs = (Pattern.mk [] [⟨p, .plus⟩]).matches m cs := by
  induction n generalizing m cs with
  | zero => exact absurd hn (Nat.not_lt_zero _)
  | succ n ih =>
      obtain ⟨m, rfl⟩ : ∃ k, m = k + 1 := ⟨m - 1, by omega⟩
      have hat := matchAt_plus (p := p) cs
      by_cases hrun : cs.takeWhile p = []
      · rw [if_pos hrun] at hat
        cases cs with
        | nil => rfl
        | cons c cs =>
            rw [List.length_cons] at hn hm
            rw [matches_of_none hat, matches_of_none hat]
            exact ih (by omega) (by omega)
      · rw [if_neg hrun] at hat
        have hpos : 0 < cs.length := by
          cases cs with
          | nil => exact absurd rfl hrun
          | cons c cs => exact Nat.succ_pos _
        have hdrop : (cs.drop (max 1 (cs.takeWhile p).length)).length < cs.length := by
          rw [List.length_drop]
          omega
        rw [matches_of_some hat, matches_of_some hat]
        exact congrArg _ (ih (by omega) (by omega))

/-- The runs of digits of a text. -/
def digitRuns (cs : List Char) : List (List Char) :=
  (Pattern.mk [] [⟨isDigit, .plus⟩]).matches (cs.length + 1) cs

/-- `%d+` gives the runs of digits one after the other. -/
theorem gmatch_digits (s : String) :
    gmatch "%d+" s = (digitRuns s.toList).map String.ofList := by
  have hpattern : compile "%d+" = ⟨[], [⟨isDigit, .plus⟩]⟩ := rfl
  unfold gmatch digitRuns
  rw [hpattern, String.length_toList]

theorem digitRuns_nil : digitRuns [] = [] := rfl

/-- What is not a digit is skipped. -/
theorem digitRuns_skip {pre : List Char} (hpre : ∀ c ∈ pre, isDigit c = false) (cs : List Char) :
    digitRuns (pre ++ cs) = digitRuns cs := by
  induction pre with
  | nil => rfl
  | cons c pre ih =>
      have hc := hpre c List.mem_cons_self
      rw [← ih fun x hx => hpre x (List.mem_cons_of_mem c hx), List.cons_append]
      have hat := matchAt_plus (p := isDigit) (c :: (pre ++ cs))
      rw [List.takeWhile_cons_of_neg (by simp [hc]), if_pos rfl] at hat
      exact matches_of_none hat _

/-- A run of digits, and what follows it. -/
theorem digitRuns_run {ds rest : List Char} (hne : ds ≠ []) (hds : ∀ c ∈ ds, isDigit c = true)
    (hrest : ∀ c ∈ rest.head?, isDigit c = false) :
    digitRuns (ds ++ rest) = ds :: digitRuns rest := by
  have hpos := List.length_pos_iff.mpr hne
  have hrun := (Text.takeWhile_digits hds hrest).1
  have hdrop : (ds ++ rest).drop (max 1 ds.length) = rest := by
    rw [Nat.max_eq_right hpos, List.drop_left]
  have hat := matchAt_plus (p := isDigit) (ds ++ rest)
  rw [hrun, if_neg hne] at hat
  unfold digitRuns
  rw [matches_of_some hat, hdrop, matches_fuel isDigit (m := rest.length + 1)
    (by rw [List.length_append]; omega) (Nat.lt_succ_self _)]

/-- A row of integers has a run for each of them. -/
theorem digitRuns_fields (xs : List Int) {rest : List Char}
    (hrest : ∀ c ∈ rest.head?, isDigit c = false) :
    digitRuns ((Text.fields (xs.map toString)).toList ++ rest)
      = xs.map (fun i => Nat.toDigits 10 i.natAbs) ++ digitRuns rest := by
  unfold Text.fields
  rw [String.toList_ofList]
  induction xs with
  | nil => rfl
  | cons i xs ih =>
      let row := (xs.map (toString : Int → String)).flatMap (fun w => ' ' :: w.toList)
      have hhead : ∀ c ∈ (row ++ rest).head?, isDigit c = false := by
        cases xs with
        | nil => exact hrest
        | cons j xs =>
            intro c hc
            obtain rfl : ' ' = c := Option.some.inj hc
            decide
      have hsplit : ((i :: xs).map (toString : Int → String)).flatMap (fun w => ' ' :: w.toList)
          ++ rest = (' ' :: (if i < 0 then ['-'] else [])) ++
            (Nat.toDigits 10 i.natAbs ++ (row ++ rest)) := by
        rw [List.map_cons, List.flatMap_cons, Text.toList_int]
        simp [row]
      have hsign : ∀ c ∈ ' ' :: (if i < 0 then ['-'] else []), isDigit c = false := by
        split <;> decide
      rw [hsplit, digitRuns_skip hsign, digitRuns_run Nat.toDigits_ne_nil (Text.isDigit_toDigits _)
        hhead, ih]
      rfl

end WatchedAgent.Lib.Lua
