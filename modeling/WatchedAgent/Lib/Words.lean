import Mathlib.Data.List.Infix
import WatchedAgent.Lib.Numeral

/-!
# `WatchedAgent.Lib.Words`: the words of a text

A stream splits a text at its white space, and `atoi` reads the number a word starts with.

* `tokens_append`: a blank cuts the words of a text in two.
* `tokens_fields`: a row of words, each after a blank, is read back.
* `infix_blank_iff`: a part without a blank is on one side of it.
* `length_tokens_enclosed`: a text between two characters is one word exactly when it has no
  blank.
* `atoi_toDigits`: a printed number is read back after any blanks.
-/

set_option autoImplicit false

namespace WatchedAgent.Lib.Text

/-- A word: some characters, and no white space among them. -/
structure IsWord (w : String) : Prop where
  ne : w ≠ ""
  solid : ∀ c ∈ w.toList, isSpace c = false

/-- The text has white space. -/
def HasBlank (s : String) : Prop := ∃ c ∈ s.toList, isSpace c = true

instance (s : String) : Decidable (HasBlank s) :=
  inferInstanceAs (Decidable (∃ c ∈ s.toList, _))

/-- `s.find(word)`. -/
def findWord (s word : String) : Option Nat :=
  s.toList.tails.findIdx? (fun t => word.toList.isPrefixOf t)

/-- The position of a text that stands nowhere before. -/
theorem findWord_of_split {s word : String} {pre post : List Char}
    (hs : s.toList = pre ++ (word.toList ++ post))
    (hfirst : ∀ a c b, pre = a ++ c :: b → ¬ word.toList <+: c :: b ++ (word.toList ++ post)) :
    findWord s word = some pre.length := by
  have hword : ∀ cs, word.toList <+: cs →
      cs.tails.findIdx? (fun t => word.toList.isPrefixOf t) = some 0 := by
    intro cs h
    have hhead : word.toList.isPrefixOf cs = true := List.isPrefixOf_iff_prefix.mpr h
    cases cs with
    | nil => rw [List.tails, List.findIdx?_cons, if_pos hhead]
    | cons c cs => rw [List.tails_cons, List.findIdx?_cons, if_pos hhead]
  unfold findWord
  rw [hs]
  clear hs
  induction pre with
  | nil => exact hword _ (List.prefix_append _ _)
  | cons c pre ih =>
      have hno : ¬ word.toList.isPrefixOf (c :: pre ++ (word.toList ++ post)) = true := fun h =>
        hfirst [] c pre rfl (List.isPrefixOf_iff_prefix.mp h)
      have htail := ih fun a d b heq => hfirst (c :: a) d b (by rw [heq, List.cons_append])
      rw [List.cons_append] at hno ⊢
      rw [List.tails_cons, List.findIdx?_cons, if_neg hno, htail]
      rfl

/-! ### Splitting -/

/-- A blank ends the word being read. -/
theorem tokensAux_blank {c : Char} (hc : isSpace c = true) (cs cur : List Char) :
    tokensAux (c :: cs) cur = tokensAux [] cur ++ tokensAux cs [] := by
  rw [tokensAux.eq_2, if_pos hc, tokensAux]
  split <;> rfl

/-- Another character is added to it. -/
theorem tokensAux_solid {c : Char} (hc : isSpace c = false) (cs cur : List Char) :
    tokensAux (c :: cs) cur = tokensAux cs (c :: cur) := by
  rw [tokensAux.eq_2, if_neg (by simp [hc])]

/-- The words of a text that ends in a blank do not depend on what follows. -/
theorem tokensAux_append_blank (a b cur : List Char) {c : Char} (hc : isSpace c = true) :
    tokensAux (a ++ c :: b) cur = tokensAux a cur ++ tokensAux b [] := by
  induction a generalizing cur with
  | nil => exact tokensAux_blank hc b cur
  | cons x a ih =>
      rw [List.cons_append]
      cases hx : isSpace x with
      | true => rw [tokensAux_blank hx, tokensAux_blank hx, ih, List.append_assoc]
      | false => rw [tokensAux_solid hx, tokensAux_solid hx, ih]

/-- Characters without a blank are added to the word being read. -/
theorem tokensAux_of_solid (a : List Char) (cur : List Char)
    (h : ∀ c ∈ a, isSpace c = false) (hne : a ≠ [] ∨ cur ≠ []) :
    tokensAux a cur = [String.ofList (cur.reverse ++ a)] := by
  induction a generalizing cur with
  | nil =>
      have hcur : cur ≠ [] := hne.resolve_left (fun h => h rfl)
      rw [tokensAux, if_neg (by simpa using hcur), List.append_nil]
  | cons x a ih =>
      rw [tokensAux_solid (h x List.mem_cons_self),
        ih (x :: cur) (fun c hc => h c (List.mem_cons_of_mem x hc)) (.inr (by simp)),
        List.reverse_cons, List.append_assoc, List.singleton_append]

/-- A text with something solid in it has a word. -/
theorem tokensAux_ne_nil {a b cur : List Char} {c : Char} (hc : isSpace c = false) :
    tokensAux (a ++ c :: b) cur ≠ [] := by
  have hread : ∀ (b cur : List Char), cur ≠ [] → tokensAux b cur ≠ [] := by
    intro b
    induction b with
    | nil =>
        intro cur hcur
        rw [tokensAux, if_neg (by simpa using hcur)]
        exact List.cons_ne_nil _ _
    | cons x b ih =>
        intro cur hcur
        cases hx : isSpace x with
        | true =>
            rw [tokensAux_blank hx, tokensAux, if_neg (by simpa using hcur)]
            exact List.cons_ne_nil _ _
        | false =>
            rw [tokensAux_solid hx]
            exact ih _ (List.cons_ne_nil _ _)
  induction a generalizing cur with
  | nil =>
      rw [List.nil_append, tokensAux_solid hc]
      exact hread b _ (List.cons_ne_nil _ _)
  | cons x a ih =>
      rw [List.cons_append]
      cases hx : isSpace x with
      | true =>
          rw [tokensAux_blank hx]
          exact List.append_ne_nil_of_right_ne_nil _ ih
      | false =>
          rw [tokensAux_solid hx]
          exact ih

/-- A blank cuts the words of a text in two. -/
theorem tokens_append {s a b : String} {c : Char} (hs : s.toList = a.toList ++ c :: b.toList)
    (hc : isSpace c = true) : tokens s = tokens a ++ tokens b := by
  unfold tokens
  rw [hs, tokensAux_append_blank _ _ _ hc]

/-- A word is its own only word. -/
theorem tokens_of_isWord {w : String} (h : IsWord w) : tokens w = [w] := by
  have hne : w.toList ≠ [] := fun hnil => h.ne (by rw [← String.ofList_toList (s := w), hnil])
  unfold tokens
  rw [tokensAux_of_solid _ _ h.solid (.inl hne), List.reverse_nil, List.nil_append,
    String.ofList_toList]

/-- Blanks before a text are skipped. -/
theorem tokens_blanks {s a : String} {pre : List Char} (hs : s.toList = pre ++ a.toList)
    (hpre : ∀ c ∈ pre, isSpace c = true) : tokens s = tokens a := by
  unfold tokens
  rw [hs]
  clear hs
  induction pre with
  | nil => rfl
  | cons c pre ih =>
      rw [List.cons_append, tokensAux_blank (hpre c List.mem_cons_self)]
      exact ih fun x hx => hpre x (List.mem_cons_of_mem c hx)

theorem tokens_ne_nil {s : String} {c : Char} (hmem : c ∈ s.toList) (hc : isSpace c = false) :
    tokens s ≠ [] := by
  obtain ⟨a, b, hab⟩ := List.append_of_mem hmem
  unfold tokens
  rw [hab]
  exact tokensAux_ne_nil hc

/-! ### Rows of words -/

/-- The words, each after a blank. -/
def fields (ws : List String) : String := String.ofList (ws.flatMap (fun w => ' ' :: w.toList))

/-- A row of words after a text is read back. -/
theorem tokens_fields {s a : String} {ws : List String}
    (hs : s.toList = a.toList ++ (fields ws).toList) (h : ∀ w ∈ ws, IsWord w) :
    tokens s = tokens a ++ ws := by
  have hrow : ∀ (ws : List String) (a : List Char), (∀ w ∈ ws, IsWord w) →
      tokensAux (a ++ ws.flatMap (fun w => ' ' :: w.toList)) [] = tokensAux a [] ++ ws := by
    intro ws
    induction ws with
    | nil => intro a _; simp
    | cons w ws ih =>
        intro a h
        have hw := tokens_of_isWord (h w List.mem_cons_self)
        have hrest := ih (' ' :: w.toList) fun v hv => h v (List.mem_cons_of_mem w hv)
        have hblank : tokensAux (' ' :: w.toList) [] = [w] := by
          rw [← hw]
          rfl
        -- The blank after `a` and the blank at the start of the row are one.
        rw [List.flatMap_cons, List.cons_append, tokensAux_append_blank _ _ _ (by decide)]
        rw [List.cons_append, hblank] at hrest
        congr 1
  unfold tokens
  rw [hs, fields, String.toList_ofList, hrow ws _ h]

/-- The words, each after one blank or more. -/
def padded (ws : List (Nat × String)) : String :=
  String.ofList (ws.flatMap (fun w => List.replicate (w.1 + 1) ' ' ++ w.2.toList))

/-- A padded row of words after a text is read back. -/
theorem tokens_padded {s a : String} {ws : List (Nat × String)}
    (hs : s.toList = a.toList ++ (padded ws).toList) (h : ∀ w ∈ ws, IsWord w.2) :
    tokens s = tokens a ++ ws.map Prod.snd := by
  unfold padded at hs
  rw [String.toList_ofList] at hs
  induction ws generalizing s a with
  | nil =>
      unfold tokens
      rw [hs, List.flatMap_nil, List.append_nil, List.map_nil, List.append_nil]
  | cons w ws ih =>
      let rest : List Char := ws.flatMap (fun w => List.replicate (w.1 + 1) ' ' ++ w.2.toList)
      -- The first of the blanks cuts the text, and the others are skipped.
      let b : String := String.ofList (List.replicate w.1 ' ' ++ (w.2.toList ++ rest))
      have hcut : s.toList = a.toList ++ ' ' :: b.toList := by
        rw [hs, List.flatMap_cons, List.replicate_succ, String.toList_ofList, List.cons_append,
          List.cons_append, List.append_assoc]
      have hskip : tokens b = tokens (String.ofList (w.2.toList ++ rest)) :=
        tokens_blanks (by rw [String.toList_ofList, String.toList_ofList])
          fun c hc => by rw [(List.mem_replicate.mp hc).2]; rfl
      have hrest : tokens (String.ofList (w.2.toList ++ rest)) = tokens w.2 ++ ws.map Prod.snd :=
        ih String.toList_ofList fun v hv => h v (List.mem_cons_of_mem w hv)
      rw [tokens_append hcut (by decide), hskip, hrest, tokens_of_isWord (h w List.mem_cons_self),
        List.map_cons, List.singleton_append]

/-- There is no other white space in it. -/
theorem not_mem_padded {ws : List (Nat × String)} (h : ∀ w ∈ ws, IsWord w.2) {c : Char}
    (hc : isSpace c = true) (hblank : c ≠ ' ') : c ∉ (padded ws).toList := by
  unfold padded
  rw [String.toList_ofList, List.mem_flatMap]
  rintro ⟨w, hw, hmem⟩
  rcases List.mem_append.mp hmem with hmem | hmem
  · exact hblank (List.mem_replicate.mp hmem).2
  · exact Bool.false_ne_true (((h w hw).solid c hmem).symm.trans hc)

/-! ### Parts of a text -/

/-- `find` of a word looks for a part. -/
theorem contains_iff {s word : String} : contains s word = true ↔ word.toList <:+: s.toList := by
  unfold contains
  rw [List.any_eq_true, List.infix_iff_prefix_suffix]
  constructor
  · rintro ⟨t, ht, hbegin⟩
    exact ⟨t, List.isPrefixOf_iff_prefix.mp hbegin, (List.mem_tails _ _).mp ht⟩
  · rintro ⟨t, hbegin, ht⟩
    exact ⟨t, (List.mem_tails _ _).mpr ht, List.isPrefixOf_iff_prefix.mpr hbegin⟩

/-- A part without a blank is on one side of each blank. -/
theorem infix_of_blank {w a b : List Char} {c : Char} (hw : c ∉ w) (h : w <:+: a ++ c :: b) :
    w <:+: a ∨ w <:+: b := by
  obtain ⟨s, t, heq⟩ := h
  rw [List.append_assoc] at heq
  rcases List.append_eq_append_iff.mp heq with ⟨u, rfl, htail⟩ | ⟨u, rfl, htail⟩
  · -- The part starts before the blank, so it ends there as well.
    rcases List.append_eq_append_iff.mp htail with ⟨x, rfl, -⟩ | ⟨x, rfl, hrest⟩
    · exact .inl ⟨s, x, by rw [List.append_assoc]⟩
    · cases x with
      | nil => exact .inl ⟨s, [], by simp⟩
      | cons d x =>
          obtain ⟨rfl, -⟩ := List.cons.inj hrest
          exact absurd (by simp) hw
  · cases u with
    | nil =>
        cases w with
        | nil => exact .inl ⟨[], a, rfl⟩
        | cons d w =>
            obtain ⟨rfl, -⟩ := List.cons.inj htail
            exact absurd List.mem_cons_self hw
    | cons d u =>
        obtain ⟨rfl, rfl⟩ := List.cons.inj htail
        exact .inr ⟨u, t, List.append_assoc _ _ _⟩

/-- A part without a blank is before the blank or after it. -/
theorem infix_blank_iff {w a b : List Char} {c : Char} (hw : c ∉ w) :
    w <:+: a ++ c :: b ↔ w <:+: a ∨ w <:+: b := by
  refine ⟨infix_of_blank hw, ?_⟩
  rintro (h | h)
  · exact h.trans (List.prefix_append _ _).isInfix
  · exact h.trans ((List.suffix_cons c b).trans (List.suffix_append _ _)).isInfix

/-- Filling up a text adds no such part. -/
theorem infix_leftpad_iff {w a : List Char} {c : Char} (hw : c ∉ w) (hne : w ≠ []) (n : Nat) :
    w <:+: a.leftpad n c ↔ w <:+: a := by
  unfold List.leftpad
  generalize n - a.length = k
  induction k with
  | zero => rfl
  | succ k ih =>
      have hnil : ¬ w <:+: [] := fun h => hne (List.infix_nil.mp h)
      rw [List.replicate_succ, List.cons_append]
      exact (infix_blank_iff (a := []) hw).trans ((or_iff_right hnil).trans ih)

/-- A part whose characters the end of a text does not have stands before that end. -/
theorem infix_of_disjoint {w a b : List Char} (hw : ∀ c ∈ w, c ∉ b) (h : w <:+: a ++ b) :
    w <:+: a := by
  obtain ⟨s, t, heq⟩ := h
  rcases List.append_eq_append_iff.mp heq with ⟨u, rfl, -⟩ | ⟨u, hsw, rfl⟩
  · exact ⟨s, u, rfl⟩
  · -- What the part has in the end is nothing.
    rcases List.append_eq_append_iff.mp hsw with ⟨x, rfl, hw'⟩ | ⟨x, rfl, hw'⟩
    · cases u with
      | nil => exact ⟨s, [], by simp [hw']⟩
      | cons c u => exact absurd (by simp) (hw c (by simp [hw']))
    · cases w with
      | nil => exact ⟨[], a, rfl⟩
      | cons c w => exact absurd (by simp [hw']) (hw c List.mem_cons_self)

/-- A word of a text is part of it. -/
theorem infix_of_mem_tokens {s w : String} (h : w ∈ tokens s) : w.toList <:+: s.toList := by
  have hread : ∀ (cs cur : List Char), w ∈ tokensAux cs cur → w.toList <:+: cur.reverse ++ cs := by
    intro cs
    induction cs with
    | nil =>
        intro cur hw
        rw [tokensAux] at hw
        split at hw
        · exact absurd hw List.not_mem_nil
        · rw [List.mem_singleton.mp hw, String.toList_ofList]
          exact (List.prefix_append _ _).isInfix
    | cons c cs ih =>
        intro cur hw
        cases hc : isSpace c with
        | false =>
            rw [tokensAux_solid hc] at hw
            have hinfix := ih (c :: cur) hw
            rw [List.reverse_cons, List.append_assoc] at hinfix
            exact hinfix
        | true =>
            rw [tokensAux_blank hc] at hw
            rcases List.mem_append.mp hw with hw | hw
            · rw [tokensAux] at hw
              split at hw
              · exact absurd hw List.not_mem_nil
              · rw [List.mem_singleton.mp hw, String.toList_ofList]
                exact (List.prefix_append _ _).isInfix
            · exact (ih [] hw).trans
                ((List.suffix_cons c cs).trans (List.suffix_append _ _)).isInfix
  exact hread s.toList [] h

/-! ### Between two characters -/

/-- A text between two solid characters has at least one word, and exactly one where it has
no blank. -/
theorem length_tokens_enclosed {s : String} {l r : Char} {cs : List Char}
    (hs : s.toList = l :: (cs ++ [r])) (hl : isSpace l = false) (hr : isSpace r = false) :
    1 ≤ (tokens s).length ∧ ((tokens s).length = 1 ↔ ∀ c ∈ cs, isSpace c = false) := by
  have hpos : 1 ≤ (tokens s).length :=
    List.length_pos_iff.mpr (tokens_ne_nil (c := l) (by simp [hs]) hl)
  refine ⟨hpos, ?_, ?_⟩
  · intro hone c hc
    by_contra hblank
    rw [Bool.not_eq_false] at hblank
    -- A blank leaves a word on each side.
    obtain ⟨a, b, rfl⟩ := List.append_of_mem hc
    have hcut := tokens_append (a := String.ofList (l :: a)) (b := String.ofList (b ++ [r]))
      (by rw [hs, String.toList_ofList, String.toList_ofList]; simp) hblank
    have hleft : tokens (String.ofList (l :: a)) ≠ [] := tokens_ne_nil (c := l) (by simp) hl
    have hright : tokens (String.ofList (b ++ [r])) ≠ [] := tokens_ne_nil (c := r) (by simp) hr
    rw [hcut, List.length_append] at hone
    have hleft' := List.length_pos_iff.mpr hleft
    have hright' := List.length_pos_iff.mpr hright
    omega
  · intro hsolid
    have hword : IsWord s := by
      refine ⟨fun h => by simp [h] at hs, ?_⟩
      rw [hs]
      intro c hc
      rcases List.mem_cons.mp hc with rfl | hc
      · exact hl
      · rcases List.mem_append.mp hc with hc | hc
        · exact hsolid c hc
        · rw [List.mem_singleton.mp hc]
          exact hr
    rw [tokens_of_isWord hword]
    rfl

/-! ### Numbers as words -/

theorem toList_nat (n : Nat) : (toString n).toList = Nat.toDigits 10 n := String.toList_ofList

/-- A printed integer: its sign, and the digits of its size. -/
theorem toList_int (i : Int) :
    (toString i).toList = (if i < 0 then ['-'] else []) ++ Nat.toDigits 10 i.natAbs := by
  cases i with
  | ofNat n => exact (toList_nat n).trans (by simp)
  | negSucc n =>
      have htext : (toString (Int.negSucc n)).toList = '-' :: Nat.toDigits 10 (n + 1) := by
        show ("-" ++ toString (n + 1)).toList = _
        rw [String.toList_append, toList_nat]
        rfl
      rw [htext, if_pos (Int.negSucc_lt_zero n)]
      rfl

/-- What holds of the digits and of the sign holds of a printed integer. -/
theorem all_int {p : Char → Prop} (hdigit : ∀ d < 10, p (Nat.digitChar d)) (hminus : p '-')
    (i : Int) : ∀ c ∈ (toString i).toList, p c := by
  intro c hc
  rw [toList_int] at hc
  rcases List.mem_append.mp hc with hc | hc
  · split at hc
    · rw [List.mem_singleton.mp hc]
      exact hminus
    · exact absurd hc List.not_mem_nil
  · exact all_toDigits isBase_ten hdigit c hc

theorem isWord_int (i : Int) : IsWord (toString i) := by
  refine ⟨fun h => ?_, all_int (p := fun c => isSpace c = false) (by decide) (by decide) i⟩
  have hnil := toList_int i
  rw [h] at hnil
  exact Nat.toDigits_ne_nil (List.append_eq_nil_iff.mp hnil.symm).2

theorem isWord_nat (n : Nat) : IsWord (toString n) := isWord_int n

/-- A text with some more characters around it is a word. -/
theorem isWord_around {w a b : String} (hw : IsWord w) (ha : ∀ c ∈ a.toList, isSpace c = false)
    (hb : ∀ c ∈ b.toList, isSpace c = false) : IsWord (a ++ w ++ b) := by
  refine ⟨fun h => hw.ne ?_, fun c hc => ?_⟩
  · have hempty := congrArg String.toList h
    rw [String.toList_append, String.toList_append] at hempty
    have hnil : w.toList = [] := (List.append_eq_nil_iff.mp (List.append_eq_nil_iff.mp hempty).1).2
    rw [← String.ofList_toList (s := w), hnil]
  · rw [String.toList_append, String.toList_append] at hc
    rcases List.mem_append.mp hc with hc | hc
    · rcases List.mem_append.mp hc with hc | hc
      · exact ha c hc
      · exact hw.solid c hc
    · exact hb c hc

/-! ### `atoi` -/

/-- A printed number is read back after any blanks. -/
theorem atoi_toDigits {s : String} {n : Nat} {a b : List Char}
    (hs : s.toList = a ++ (Nat.toDigits 10 n ++ b)) (hpre : ∀ c ∈ a, isSpace c = true)
    (h : Ends 10 b) : atoi s = n := by
  have hchars : ∀ c ∈ Nat.toDigits 10 n, isSpace c = false ∧ c ≠ '-' ∧ c ≠ '+' :=
    all_toDigits isBase_ten (by decide)
  obtain ⟨d, ds, hds⟩ := exists_toDigits 10 n
  obtain ⟨hblank, hminus, hplus⟩ := hchars d (by simp [hds])
  have hdrop : s.toList.dropWhile isSpace = Nat.toDigits 10 n ++ b := by
    rw [hs, List.dropWhile_append_of_pos hpre, hds, List.cons_append,
      List.dropWhile_cons_of_neg (by simp [hblank])]
  have hvalue : digitsValue 10 0 (Nat.toDigits 10 n ++ b) = n := by
    rw [digitsValue_toDigits isBase_ten, digitsValue_of_ends n h]
  unfold atoi
  rw [hdrop]
  split
  · rename_i heq
    rw [hds, List.cons_append] at heq
    exact absurd (List.cons.inj heq).1 hminus
  · rename_i heq
    rw [hds, List.cons_append] at heq
    exact absurd (List.cons.inj heq).1 hplus
  · rw [hvalue]

/-- A printed number is read back. -/
theorem atoi_nat (n : Nat) : atoi (toString n) = n :=
  atoi_toDigits (a := []) (b := []) (by rw [toList_nat]; simp) (by simp) (by simp [Ends])

end WatchedAgent.Lib.Text
