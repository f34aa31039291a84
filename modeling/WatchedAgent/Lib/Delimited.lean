import Mathlib.Data.List.Infix

/-!
# `WatchedAgent.Lib.Delimited`: frames that end in a delimiter

A reader of a stream gets it in pieces, and waits until what it has contains the delimiter.
`endOf d as` is where the first `d` in `as` ends.

* `endOf_append`: what comes later does not move it.
* `endOf_of_prefix`: of a part of the stream it is found exactly when the part is long enough.

With the delimiter `\r\n\r\n`, `endOf_lines` says that the first empty line of some lines is the
end.
-/

set_option autoImplicit false

namespace WatchedAgent.Lib.Delimited

section
variable {α : Type*} [DecidableEq α] {d : List α}

/-- The number of elements up to the end of the first `d`. -/
def endOf (d : List α) : List α → Option Nat
  | [] => if d = [] then some 0 else none
  | a :: as => if d <+: a :: as then some d.length else (endOf d as).map (· + 1)

theorem endOf_le {as : List α} {n : Nat} (h : endOf d as = some n) : n ≤ as.length := by
  induction as generalizing n with
  | nil =>
      unfold endOf at h
      split at h
      · rw [← Option.some.inj h]
        exact Nat.le_refl 0
      · exact absurd h (by simp)
  | cons a as ih =>
      unfold endOf at h
      split at h
      · rename_i hbegin
        rw [← Option.some.inj h]
        exact hbegin.length_le
      · obtain ⟨m, hm, rfl⟩ := Option.map_eq_some_iff.mp h
        exact Nat.succ_le_succ (ih hm)

/-- The delimiter is what the elements up to its end close with. -/
theorem exists_split {as : List α} {n : Nat} (h : endOf d as = some n) :
    ∃ pre post, as = pre ++ (d ++ post) ∧ n = pre.length + d.length := by
  induction as generalizing n with
  | nil =>
      unfold endOf at h
      split at h
      · rename_i hd
        refine ⟨[], [], by rw [hd]; rfl, ?_⟩
        rw [← Option.some.inj h, hd]
        rfl
      · exact absurd h (by simp)
  | cons a as ih =>
      unfold endOf at h
      split at h
      · rename_i hbegin
        obtain ⟨post, hpost⟩ := hbegin
        refine ⟨[], post, hpost.symm, ?_⟩
        rw [← Option.some.inj h, List.length_nil, Nat.zero_add]
      · obtain ⟨m, hm, rfl⟩ := Option.map_eq_some_iff.mp h
        obtain ⟨pre, post, rfl, rfl⟩ := ih hm
        refine ⟨a :: pre, post, rfl, ?_⟩
        rw [List.length_cons]
        omega

/-- A part of the stream that is long enough shows the same delimiter, and a shorter one none. -/
theorem endOf_of_prefix {as bs : List α} (hbegin : as <+: bs) {n : Nat}
    (h : endOf d bs = some n) : endOf d as = if n ≤ as.length then some n else none := by
  induction bs generalizing as n with
  | nil =>
      obtain rfl := List.prefix_nil.mp hbegin
      rw [h, if_pos (endOf_le h)]
  | cons b bs ih =>
      cases as with
      | nil =>
          unfold endOf at h ⊢
          by_cases hd : d = []
          · subst hd
            rw [if_pos (List.nil_prefix)] at h
            rw [if_pos rfl, ← Option.some.inj h]
            rfl
          · have hn : 0 < n := by
              split at h
              · rw [← Option.some.inj h]
                exact List.length_pos_iff.mpr hd
              · obtain ⟨m, -, rfl⟩ := Option.map_eq_some_iff.mp h
                omega
            rw [if_neg hd, if_neg (by rw [List.length_nil]; omega)]
      | cons a as =>
          obtain ⟨rfl, htail⟩ := List.cons_prefix_cons.mp hbegin
          unfold endOf at h ⊢
          by_cases hd : d <+: a :: bs
          · rw [if_pos hd] at h
            obtain rfl := Option.some.inj h
            by_cases hlen : d.length ≤ (a :: as).length
            · rw [if_pos (List.prefix_of_prefix_length_le hd hbegin hlen), if_pos hlen]
            · -- The delimiter starts here, but the part is too short for it.
              have hnot : ¬ d <+: a :: as := fun h => hlen h.length_le
              rw [if_neg hnot, if_neg hlen, Option.map_eq_none_iff]
              cases hrest : endOf d as with
              | none => rfl
              | some m =>
                  obtain ⟨pre, post, hsplit, -⟩ := exists_split hrest
                  have hle := congrArg List.length hsplit
                  rw [List.length_append, List.length_append] at hle
                  rw [List.length_cons] at hlen
                  omega
          · rw [if_neg hd] at h
            obtain ⟨m, hm, rfl⟩ := Option.map_eq_some_iff.mp h
            rw [if_neg fun h => hd (h.trans hbegin), ih htail hm, List.length_cons]
            by_cases hlen : m ≤ as.length
            · rw [if_pos hlen, if_pos (Nat.succ_le_succ hlen)]
              rfl
            · rw [if_neg hlen, if_neg fun h => hlen (Nat.le_of_succ_le_succ h)]
              rfl

/-- What comes later does not move the end. -/
theorem endOf_append {as : List α} {n : Nat} (h : endOf d as = some n) (bs : List α) :
    endOf d (as ++ bs) = some n := by
  induction as generalizing n with
  | nil =>
      unfold endOf at h
      split at h
      · rename_i hd
        subst hd
        rw [← Option.some.inj h]
        cases bs with
        | nil => rfl
        | cons b bs => exact if_pos List.nil_prefix
      · exact absurd h (by simp)
  | cons a as ih =>
      rw [List.cons_append]
      unfold endOf at h ⊢
      by_cases hd : d <+: a :: as
      · rw [if_pos hd] at h
        have hd' : d <+: a :: (as ++ bs) := hd.trans (List.prefix_append (a :: as) bs)
        rw [if_pos hd', h]
      · rw [if_neg hd] at h
        obtain ⟨m, hm, rfl⟩ := Option.map_eq_some_iff.mp h
        have hnot : ¬ d <+: a :: (as ++ bs) := by
          intro hd'
          -- The delimiter would end behind `as`, but it was found within.
          refine hd (List.prefix_of_prefix_length_le hd' (List.prefix_append (a :: as) bs) ?_)
          obtain ⟨pre, post, hsplit, -⟩ := exists_split hm
          have hle := congrArg List.length hsplit
          rw [List.length_append, List.length_append] at hle
          rw [List.length_cons]
          omega
        rw [if_neg hnot, ih hm]
        rfl

end

/-! ### Lines -/

/-- The end of a header. -/
def crlf2 : List Char := ['\r', '\n', '\r', '\n']

/-- Lines that end in `\r\n`. -/
def linesText (lines : List (List Char)) : List Char := lines.flatMap (· ++ ['\r', '\n'])

/-- Within a line there is no delimiter. -/
theorem endOf_line {line : List Char} (hline : '\n' ∉ line) (rest : List Char) :
    endOf crlf2 (line ++ '\r' :: rest)
      = (endOf crlf2 ('\r' :: rest)).map (· + line.length) := by
  induction line with
  | nil => simp
  | cons c line ih =>
      have htail : '\n' ∉ line := fun h => hline (List.mem_cons_of_mem c h)
      have hnot : ¬ crlf2 <+: c :: (line ++ '\r' :: rest) := by
        intro h
        have hsecond := List.prefix_iff_getElem?.mp h 1 (by decide)
        cases line with
        | nil => exact absurd hsecond (by simp [crlf2])
        | cons e line =>
            refine hline (List.mem_cons_of_mem c ?_)
            have he : some e = some '\n' := hsecond
            rw [Option.some.inj he]
            exact List.mem_cons_self
      rw [List.cons_append, endOf, if_neg hnot, ih htail, Option.map_map]
      rfl

/-- The first empty line after lines that are not empty ends the header. -/
theorem endOf_lines {lines : List (List Char)} (hne : lines ≠ [])
    (hlines : ∀ l ∈ lines, l ≠ [] ∧ '\n' ∉ l) (rest : List Char) :
    endOf crlf2 (linesText lines ++ ('\r' :: '\n' :: rest)) = some ((linesText lines).length + 2) := by
  induction lines with
  | nil => exact absurd rfl hne
  | cons l lines ih =>
      obtain ⟨-, hl⟩ := hlines l List.mem_cons_self
      have htail : ∀ l ∈ lines, l ≠ [] ∧ '\n' ∉ l := fun l h => hlines l (List.mem_cons_of_mem _ h)
      have htext : linesText (l :: lines) ++ '\r' :: '\n' :: rest
          = l ++ '\r' :: '\n' :: (linesText lines ++ '\r' :: '\n' :: rest) := by
        simp [linesText]
      have hlength : (linesText (l :: lines)).length = l.length + 2 + (linesText lines).length := by
        simp only [linesText, List.flatMap_cons, List.length_append, List.length_cons,
          List.length_nil]
      rw [htext, endOf_line hl, hlength]
      cases lines with
      | nil =>
          have hend : crlf2 <+: '\r' :: '\n' :: '\r' :: '\n' :: rest := ⟨rest, rfl⟩
          show (endOf crlf2 ('\r' :: '\n' :: '\r' :: '\n' :: rest)).map _ = _
          rw [endOf, if_pos hend]
          show some (4 + l.length) = some (l.length + 2 + 0 + 2)
          congr 1
          omega
      | cons l' lines =>
          obtain ⟨hne', hl'⟩ := htail l' List.mem_cons_self
          obtain ⟨c, cs, rfl⟩ := List.exists_cons_of_ne_nil hne'
          -- The next line is not empty, so it does not close the delimiter.
          let after := linesText ((c :: cs) :: lines) ++ '\r' :: '\n' :: rest
          have hafter : after = c :: (cs ++ '\r' :: '\n' :: (linesText lines ++ '\r' :: '\n' :: rest)) := by
            simp [after, linesText]
          have hsecond : after[1]? ≠ some '\n' := by
            rw [hafter]
            cases cs with
            | nil => simp
            | cons e cs =>
                intro h
                refine hl' (List.mem_cons_of_mem c ?_)
                have he : some e = some '\n' := h
                rw [Option.some.inj he]
                exact List.mem_cons_self
          have hfirst : ¬ crlf2 <+: '\r' :: '\n' :: after := fun h =>
            hsecond (List.prefix_iff_getElem?.mp h 3 (by decide))
          have hnext : ¬ crlf2 <+: '\n' :: after := fun h =>
            absurd (List.prefix_iff_getElem?.mp h 0 (by decide)) (by simp [crlf2])
          show (endOf crlf2 ('\r' :: '\n' :: after)).map _ = _
          rw [endOf, if_neg hfirst, endOf, if_neg hnext, ih (by simp) htail]
          show some ((linesText ((c :: cs) :: lines)).length + 2 + 1 + 1 + l.length) = some _
          congr 1
          omega

end WatchedAgent.Lib.Delimited
