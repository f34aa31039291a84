import Mathlib.Data.List.Basic

/-!
# `WatchedAgent.Lib.Regex`: regular expressions with greedy groups

The part of the ECMAScript syntax that a table of routes needs: characters, `.`, the groups
`(.*)` and `([0-9.]*)`, and the anchors, which say nothing where the whole text has to match.
`run` matches the whole text and gives the texts of the groups. A group takes as much as it
can, and gives back what the rest needs (`longest`).

* `isSome_run_append`: a match of two lists of items splits the text.
* `litCount_le_of_run`: a text that matches has every literal character.
* `longest_of_split`: a group stops at the last place where the rest matches.
-/

set_option autoImplicit false

namespace WatchedAgent.Lib.Regex

/-- One part of an expression. -/
inductive Item where
  | lit (c : Char)
  | any
  | group (p : Char → Bool)

/-- What `.` matches: anything but the end of a line. -/
def isLine (c : Char) : Bool := c != '\n' && c != '\r'

/-- What `[0-9.]` matches. -/
def isDecimal (c : Char) : Bool := ('0' ≤ c && c ≤ '9') || c == '.'

/-- The items of an expression. -/
def compile : List Char → List Item
  | '(' :: '.' :: '*' :: ')' :: cs => .group isLine :: compile cs
  | '(' :: '[' :: '0' :: '-' :: '9' :: '.' :: ']' :: '*' :: ')' :: cs =>
      .group isDecimal :: compile cs
  | '^' :: cs => compile cs
  | '$' :: cs => compile cs
  | '.' :: cs => .any :: compile cs
  | c :: cs => .lit c :: compile cs
  | [] => []

/-- A group over the characters of `p`, and then the rest `k`: the longest text for the group
with which the rest matches, and the groups of the rest. -/
def longest (p : Char → Bool) (k : List Char → Option (List (List Char))) :
    List Char → Option (List Char × List (List Char))
  | [] => (k []).map (fun gs => ([], gs))
  | x :: xs =>
      match if p x then longest p k xs else none with
      | some (g, gs) => some (x :: g, gs)
      | none => (k (x :: xs)).map (fun gs => ([], gs))

/-- The texts of the groups, when the items match the whole text. -/
def run : List Item → List Char → Option (List (List Char))
  | [], [] => some []
  | [], _ :: _ => none
  | .lit c :: is, x :: xs => if x = c then run is xs else none
  | .lit _ :: _, [] => none
  | .any :: is, x :: xs => if isLine x then run is xs else none
  | .any :: _, [] => none
  | .group p :: is, xs => (longest p (run is) xs).map (fun r => r.1 :: r.2)

/-- `std::regex_match` of the whole text, with its groups. -/
def regexMatch (expr text : String) : Option (List String) :=
  (run (compile expr.toList) text.toList).map (fun gs => gs.map String.ofList)

/-! ### Which texts match -/

/-- A group matches exactly when some split of the text does. -/
theorem isSome_longest (p : Char → Bool) (k : List Char → Option (List (List Char)))
    (xs : List Char) : (longest p k xs).isSome = true
      ↔ ∃ pre post, xs = pre ++ post ∧ (∀ c ∈ pre, p c = true) ∧ (k post).isSome = true := by
  induction xs with
  | nil =>
      rw [longest, Option.isSome_map]
      constructor
      · exact fun h => ⟨[], [], rfl, by simp, h⟩
      · rintro ⟨pre, post, heq, -, h⟩
        obtain ⟨-, rfl⟩ := List.append_eq_nil_iff.mp heq.symm
        exact h
  | cons x xs ih =>
      -- The empty group, or `x` in the group and a match of the rest.
      have hsplit : (∃ pre post, x :: xs = pre ++ post ∧ (∀ c ∈ pre, p c = true) ∧
            (k post).isSome = true)
          ↔ (k (x :: xs)).isSome = true ∨ (p x = true ∧ (longest p k xs).isSome = true) := by
        rw [ih]
        constructor
        · rintro ⟨pre, post, heq, hp, h⟩
          cases pre with
          | nil => exact .inl (heq ▸ h)
          | cons y pre =>
              obtain ⟨rfl, rfl⟩ := List.cons.inj heq
              exact .inr ⟨hp x List.mem_cons_self, pre, post, rfl,
                fun c hc => hp c (List.mem_cons_of_mem _ hc), h⟩
        · rintro (h | ⟨hx, pre, post, rfl, hp, h⟩)
          · exact ⟨[], x :: xs, rfl, by simp, h⟩
          · exact ⟨x :: pre, post, rfl, by simpa using ⟨hx, hp⟩, h⟩
      rw [hsplit, longest]
      by_cases hx : p x = true
      · rw [if_pos hx]
        cases hmore : longest p k xs with
        | none => simp
        | some r => simp [hx]
      · rw [if_neg hx]
        simp [hx]

/-- An item that matches one character. -/
def Item.accepts : Item → Char → Bool
  | .lit c, x => x == c
  | .any, x => isLine x
  | .group _, _ => false

/-- An item other than a group. -/
def Item.IsSingle : Item → Prop
  | .group _ => False
  | _ => True

theorem run_single_nil {i : Item} (hi : i.IsSingle) (is : List Item) :
    run (i :: is) [] = none := by
  cases i with
  | lit c => rfl
  | any => rfl
  | group p => exact absurd hi id

theorem run_single_cons {i : Item} (hi : i.IsSingle) (is : List Item) (x : Char)
    (xs : List Char) : run (i :: is) (x :: xs) = if i.accepts x then run is xs else none := by
  cases i with
  | lit c => simp [run, Item.accepts]
  | any => rfl
  | group p => exact absurd hi id

theorem isSome_run_group (p : Char → Bool) (is : List Item) (xs : List Char) :
    (run (.group p :: is) xs).isSome = true
      ↔ ∃ pre post, xs = pre ++ post ∧ (∀ c ∈ pre, p c = true) ∧ (run is post).isSome = true := by
  rw [run, Option.isSome_map, isSome_longest]

theorem isSome_run_single {i : Item} (hi : i.IsSingle) (is : List Item) (xs : List Char) :
    (run (i :: is) xs).isSome = true
      ↔ ∃ x rest, xs = x :: rest ∧ i.accepts x = true ∧ (run is rest).isSome = true := by
  cases xs with
  | nil =>
      rw [run_single_nil hi]
      simp
  | cons x xs =>
      rw [run_single_cons hi]
      split
      · rename_i hx
        constructor
        · exact fun h => ⟨x, xs, rfl, hx, h⟩
        · rintro ⟨y, rest, heq, -, h⟩
          obtain ⟨rfl, rfl⟩ := List.cons.inj heq
          exact h
      · rename_i hx
        refine iff_of_false (by simp) ?_
        rintro ⟨y, rest, heq, hy, -⟩
        obtain ⟨rfl, rfl⟩ := List.cons.inj heq
        exact hx hy

theorem isSome_run_nil (xs : List Char) : (run [] xs).isSome = true ↔ xs = [] := by
  cases xs <;> simp [run]

/-- The texts that the items of two lists match one after the other. -/
theorem isSome_run_append (is js : List Item) (xs : List Char) :
    (run (is ++ js) xs).isSome = true
      ↔ ∃ pre post, xs = pre ++ post ∧ (run is pre).isSome = true ∧
          (run js post).isSome = true := by
  induction is generalizing xs with
  | nil =>
      constructor
      · exact fun h => ⟨[], xs, rfl, rfl, h⟩
      · rintro ⟨pre, post, rfl, hpre, h⟩
        obtain rfl := (isSome_run_nil pre).mp hpre
        exact h
  | cons i is ih =>
      by_cases hi : i.IsSingle
      · rw [List.cons_append, isSome_run_single hi]
        constructor
        · rintro ⟨x, rest, rfl, hx, h⟩
          obtain ⟨pre, post, rfl, hpre, hpost⟩ := (ih rest).mp h
          exact ⟨x :: pre, post, rfl, (isSome_run_single hi is _).mpr ⟨x, pre, rfl, hx, hpre⟩,
            hpost⟩
        · rintro ⟨pre, post, rfl, hpre, hpost⟩
          obtain ⟨x, rest, rfl, hx, h⟩ := (isSome_run_single hi is pre).mp hpre
          exact ⟨x, rest ++ post, rfl, hx, (ih _).mpr ⟨rest, post, rfl, h, hpost⟩⟩
      · cases i with
        | lit c => exact absurd trivial hi
        | any => exact absurd trivial hi
        | group p =>
            rw [List.cons_append, isSome_run_group]
            constructor
            · rintro ⟨g, rest, rfl, hg, h⟩
              obtain ⟨pre, post, rfl, hpre, hpost⟩ := (ih rest).mp h
              exact ⟨g ++ pre, post, (List.append_assoc _ _ _).symm,
                (isSome_run_group p is _).mpr ⟨g, pre, rfl, hg, hpre⟩, hpost⟩
            · rintro ⟨pre, post, rfl, hpre, hpost⟩
              obtain ⟨g, rest, rfl, hg, h⟩ := (isSome_run_group p is pre).mp hpre
              exact ⟨g, rest ++ post, List.append_assoc _ _ _, hg,
                (ih _).mpr ⟨rest, post, rfl, h, hpost⟩⟩

/-- How often a character is a literal of the items. -/
def litCount (c : Char) : List Item → Nat
  | [] => 0
  | .lit d :: is => (if d = c then 1 else 0) + litCount c is
  | _ :: is => litCount c is

/-- A text that matches has every literal. -/
theorem litCount_le_of_run {is : List Item} {xs : List Char} (c : Char)
    (h : (run is xs).isSome = true) : litCount c is ≤ xs.count c := by
  induction is generalizing xs with
  | nil => exact Nat.zero_le _
  | cons i is ih =>
      cases i with
      | lit d =>
          obtain ⟨x, rest, rfl, hx, hrest⟩ := (isSome_run_single (i := .lit d) trivial is xs).mp h
          obtain rfl : x = d := by simpa [Item.accepts] using hx
          have hle := ih hrest
          rw [litCount, List.count_cons]
          simp only [beq_iff_eq]
          omega
      | any =>
          obtain ⟨x, rest, rfl, -, hrest⟩ := (isSome_run_single (i := .any) trivial is xs).mp h
          exact Nat.le_trans (ih hrest) List.count_le_count_cons
      | group p =>
          obtain ⟨pre, post, rfl, -, hpost⟩ := (isSome_run_group p is xs).mp h
          rw [List.count_append]
          exact Nat.le_trans (ih hpost) (Nat.le_add_left _ _)

/-- A text that matches ends with the last item, if that is a literal. -/
theorem getLast?_of_run_lit {is : List Item} {c : Char} {xs : List Char}
    (h : (run (is ++ [.lit c]) xs).isSome = true) : xs.getLast? = some c := by
  obtain ⟨pre, post, rfl, -, hpost⟩ := (isSome_run_append is [.lit c] xs).mp h
  obtain ⟨x, rest, rfl, hx, hrest⟩ := (isSome_run_single (i := .lit c) trivial [] post).mp hpost
  obtain rfl := (isSome_run_nil rest).mp hrest
  rw [List.getLast?_append, show x = c by simpa [Item.accepts] using hx]
  rfl

/-- After a last literal and a group, the text ends with the literal or in the group. -/
theorem getLast?_of_run_lit_group {is : List Item} {c : Char} {p : Char → Bool}
    {xs : List Char} (h : (run (is ++ [.lit c, .group p]) xs).isSome = true) :
    ∃ x, xs.getLast? = some x ∧ (x = c ∨ p x = true) := by
  obtain ⟨pre, post, rfl, -, hpost⟩ := (isSome_run_append is [.lit c, .group p] xs).mp h
  obtain ⟨y, rest, rfl, hy, hrest⟩ :=
    (isSome_run_single (i := .lit c) trivial [.group p] post).mp hpost
  obtain ⟨g, empty, rfl, hg, hempty⟩ := (isSome_run_group p [] rest).mp hrest
  obtain rfl := (isSome_run_nil empty).mp hempty
  obtain rfl : y = c := by simpa [Item.accepts] using hy
  rw [List.append_nil, List.getLast?_append, List.getLast?_cons, Option.some_or]
  cases hlast : g.getLast? with
  | none => exact ⟨y, rfl, .inl rfl⟩
  | some x => exact ⟨x, rfl, .inr (hg x (List.mem_of_getLast? hlast))⟩

/-! ### What the groups are -/

/-- A group stops where the rest matches, if the rest matches no later. -/
theorem longest_of_split {p : Char → Bool} {is : List Item} {pre post : List Char}
    {gs : List (List Char)} (hp : ∀ c ∈ pre, p c = true) (hmatch : run is post = some gs)
    (hstop : ∀ b, b <:+ post → b ≠ post → run is b = none) :
    longest p (run is) (pre ++ post) = some (pre, gs) := by
  induction pre with
  | nil =>
      cases post with
      | nil => rw [List.nil_append, longest, hmatch, Option.map_some]
      | cons x rest =>
          -- No suffix of `rest` is a match.
          have hnone : longest p (run is) rest = none := by
            rw [← Option.not_isSome_iff_eq_none, isSome_longest]
            rintro ⟨g, b, rfl, -, hb⟩
            have hne : b ≠ x :: (g ++ b) := by
              intro heq
              have hlen := congrArg List.length heq
              simp at hlen
              omega
            rw [hstop b ((List.suffix_append g b).trans (List.suffix_cons x _)) hne] at hb
            exact absurd hb (by simp)
          rw [List.nil_append, longest, hnone, ite_self, hmatch]
          rfl
  | cons y pre ih =>
      rw [List.cons_append, longest, if_pos (hp y List.mem_cons_self),
        ih fun c hc => hp c (List.mem_cons_of_mem _ hc)]

/-- A group before a literal stops at the place that leaves as many of them as the items
after it have. -/
theorem run_group_lit {p : Char → Bool} {c : Char} {is : List Item} {pre rest : List Char}
    {gs : List (List Char)} (hp : ∀ d ∈ pre, p d = true) (hmatch : run is rest = some gs)
    (hcount : rest.count c = litCount c is) :
    run (.group p :: .lit c :: is) (pre ++ c :: rest) = some (pre :: gs) := by
  have hlit : run (.lit c :: is) (c :: rest) = some gs := by
    rw [run, if_pos rfl, hmatch]
  have hstop : ∀ b, b <:+ c :: rest → b ≠ c :: rest → run (.lit c :: is) b = none := by
    intro b hb hne
    rw [← Option.not_isSome_iff_eq_none]
    intro h
    -- A shorter suffix has too few of the literal.
    have hcons : litCount c (.lit c :: is) = 1 + litCount c is := by
      show (if c = c then 1 else 0) + litCount c is = _
      rw [if_pos rfl]
    have hle := litCount_le_of_run c h
    have hsuffix : b <:+ rest := (List.suffix_cons_iff.mp hb).resolve_left hne
    have hcountb := hsuffix.sublist.count_le c
    omega
  rw [run, longest_of_split hp hlit hstop]
  rfl

/-! ### Literal texts -/

/-- The items of a text without groups and anchors. -/
def ofText (cs : List Char) : List Item := cs.map (fun c => if c = '.' then .any else .lit c)

/-- A character that stands for itself, or `.`. -/
def IsPlain (c : Char) : Prop := c ≠ '(' ∧ c ≠ '^' ∧ c ≠ '$'

instance (c : Char) : Decidable (IsPlain c) :=
  inferInstanceAs (Decidable (c ≠ '(' ∧ c ≠ '^' ∧ c ≠ '$'))

theorem compile_cons {c : Char} (h : IsPlain c) (cs : List Char) :
    compile (c :: cs) = (if c = '.' then .any else .lit c) :: compile cs := by
  obtain ⟨hparen, hcaret, hdollar⟩ := h
  by_cases hdot : c = '.'
  · subst hdot
    rfl
  · rw [if_neg hdot]
    rw [compile]
    · exact fun _ heq => absurd heq hparen
    · exact fun _ heq => absurd heq hparen
    · exact hcaret
    · exact hdollar
    · exact hdot

theorem compile_append {cs : List Char} (h : ∀ c ∈ cs, IsPlain c) (ds : List Char) :
    compile (cs ++ ds) = ofText cs ++ compile ds := by
  induction cs with
  | nil => rfl
  | cons c cs ih =>
      rw [List.cons_append, compile_cons (h c List.mem_cons_self),
        ih fun d hd => h d (List.mem_cons_of_mem _ hd)]
      rfl

/-- A text on one line matches itself. -/
theorem run_ofText_append {cs : List Char} (h : ∀ c ∈ cs, isLine c = true) (is : List Item)
    (rest : List Char) : run (ofText cs ++ is) (cs ++ rest) = run is rest := by
  induction cs with
  | nil => rfl
  | cons c cs ih =>
      have hrest := ih fun d hd => h d (List.mem_cons_of_mem _ hd)
      have hline := h c List.mem_cons_self
      by_cases hdot : c = '.'
      · show run ((if c = '.' then Item.any else .lit c) :: (ofText cs ++ is)) (c :: (cs ++ rest))
          = _
        rw [if_pos hdot, run, if_pos hline, hrest]
      · show run ((if c = '.' then Item.any else .lit c) :: (ofText cs ++ is)) (c :: (cs ++ rest))
          = _
        rw [if_neg hdot, run, if_pos rfl, hrest]

/-- Where the items begin with a text, the text that matches has its characters, up to `.`. -/
theorem getElem?_of_run_ofText {cs : List Char} {is : List Item} {xs : List Char}
    (h : (run (ofText cs ++ is) xs).isSome = true) {j : Nat} {x : Char} (hj : cs[j]? = some x)
    (hdot : x ≠ '.') : xs[j]? = some x := by
  induction cs generalizing xs j with
  | nil => exact absurd hj (by simp)
  | cons c cs ih =>
      have hsingle : (if c = '.' then Item.any else .lit c).IsSingle := by
        split <;> trivial
      have hcons : (run ((if c = '.' then Item.any else .lit c) :: (ofText cs ++ is)) xs).isSome
          = true := h
      obtain ⟨y, rest, rfl, hy, hrest⟩ := (isSome_run_single hsingle _ xs).mp hcons
      cases j with
      | zero =>
          obtain rfl : c = x := Option.some.inj hj
          rw [if_neg hdot] at hy
          have heq : y = c := by simpa [Item.accepts] using hy
          rw [heq]
          rfl
      | succ j => exact ih hrest hj

example : regexMatch "^/service/(.*)/(.*)/(.*)/history$" "/service/a/b/cpu/stat/history"
    = some ["a/b", "cpu", "stat"] := by
  decide

end WatchedAgent.Lib.Regex
