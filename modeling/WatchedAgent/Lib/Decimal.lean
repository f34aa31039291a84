import Mathlib.Algebra.Order.Ring.Rat
import WatchedAgent.Lib.Words

/-!
# `WatchedAgent.Lib.Decimal`: decimal fractions

The functions that read a number with a point: `stod` of C++ and `tonumber` of Lua. A double
is read as the fraction it stands for. The forms with an exponent and the hexadecimal forms
are left out.
-/

set_option autoImplicit false

namespace WatchedAgent.Lib.Text

/-- The value of the longest `digits` or `digits.digits` at the start. -/
def decimalValue (cs : List Char) : ℚ :=
  match cs.dropWhile isDigit with
  | '.' :: frac =>
      digitsValue 10 0 (cs.takeWhile isDigit ++ frac.takeWhile isDigit)
        / 10 ^ (frac.takeWhile isDigit).length
  | _ => digitsValue 10 0 (cs.takeWhile isDigit)

/-- The text starts with a digit, or with a point and a digit. -/
def startsDecimal : List Char → Bool
  | '.' :: c :: _ => isDigit c
  | c :: _ => isDigit c
  | [] => false

/-- `std::stod`, `none` when it throws. -/
def stod (s : String) : Option ℚ :=
  match s.toList.dropWhile isSpace with
  | '-' :: cs => if startsDecimal cs then some (-(decimalValue cs)) else none
  | '+' :: cs => if startsDecimal cs then some (decimalValue cs) else none
  | cs => if startsDecimal cs then some (decimalValue cs) else none

/-- `tonumber` of a text without a sign and without blanks, `none` for `nil`. -/
def tonumber (s : String) : Option ℚ :=
  let whole := match s.toList.dropWhile isDigit with
    | '.' :: frac => frac.all isDigit
    | [] => true
    | _ => false
  if startsDecimal s.toList && whole then some (decimalValue s.toList) else none

/-! ### Printed numbers -/

/-- Digits that end at a character that is none. -/
theorem takeWhile_digits {l r : List Char} (hds : ∀ c ∈ l, isDigit c = true)
    (h : ∀ c ∈ r.head?, isDigit c = false) :
    (l ++ r).takeWhile isDigit = l ∧ (l ++ r).dropWhile isDigit = r := by
  rw [List.takeWhile_append_of_pos hds, List.dropWhile_append_of_pos hds]
  cases r with
  | nil => simp
  | cons c cs =>
      have hc := h c rfl
      simp [hc]

theorem isDigit_toDigits (n : Nat) : ∀ c ∈ Nat.toDigits 10 n, isDigit c = true :=
  all_toDigits isBase_ten (by decide)

/-- A printed whole number. -/
theorem decimalValue_toDigits (n : Nat) : decimalValue (Nat.toDigits 10 n) = n := by
  have hsplit := takeWhile_digits (r := []) (isDigit_toDigits n) (by simp)
  have hvalue := digitsValue_toDigits isBase_ten n []
  rw [List.append_nil] at hsplit hvalue
  unfold decimalValue
  rw [hsplit.1, hsplit.2]
  dsimp only
  rw [hvalue]
  rfl

theorem startsDecimal_of_head {c : Char} {cs : List Char} (hc : isDigit c = true) :
    startsDecimal (c :: cs) = true := by
  unfold startsDecimal
  split
  · rename_i heq
    obtain ⟨rfl, -⟩ := List.cons.inj heq
    exact absurd hc (by decide)
  · rename_i heq
    obtain ⟨rfl, -⟩ := List.cons.inj heq
    exact hc
  · rename_i heq
    exact absurd heq (List.cons_ne_nil _ _)

/-- A printed number starts a decimal. -/
theorem startsDecimal_toDigits (n : Nat) (rest : List Char) :
    startsDecimal (Nat.toDigits 10 n ++ rest) = true := by
  obtain ⟨d, ds, hds⟩ := exists_toDigits 10 n
  rw [hds, List.cons_append]
  exact startsDecimal_of_head (isDigit_toDigits n d (by simp [hds]))

/-- A printed whole number is read back by Lua. -/
theorem tonumber_toDigits {s : String} {n : Nat} (hs : s.toList = Nat.toDigits 10 n) :
    tonumber s = some (n : ℚ) := by
  have hsplit := takeWhile_digits (r := []) (isDigit_toDigits n) (by simp)
  have hstart := startsDecimal_toDigits n []
  rw [List.append_nil] at hsplit hstart
  unfold tonumber
  rw [hs, hsplit.2, hstart, decimalValue_toDigits]
  rfl

/-! ### Printed fractions -/

/-- A text that starts with a printed number is read by C++. -/
theorem stod_of_digits {s : String} {n : Nat} {rest : List Char}
    (hs : s.toList = Nat.toDigits 10 n ++ rest) : stod s = some (decimalValue s.toList) := by
  have hchars : ∀ c ∈ Nat.toDigits 10 n, isSpace c = false ∧ c ≠ '-' ∧ c ≠ '+' :=
    all_toDigits isBase_ten (by decide)
  have hstart : startsDecimal s.toList = true := by
    rw [hs]
    exact startsDecimal_toDigits n rest
  obtain ⟨d, ds, hds⟩ := exists_toDigits 10 n
  obtain ⟨hblank, hminus, hplus⟩ := hchars d (by simp [hds])
  have hcons : s.toList = d :: (ds ++ rest) := by rw [hs, hds, List.cons_append]
  have hdrop : s.toList.dropWhile isSpace = s.toList := by
    rw [hcons, List.dropWhile_cons_of_neg (by simp [hblank])]
  unfold stod
  rw [hdrop]
  split
  · rename_i heq
    exact absurd (List.cons.inj (hcons.symm.trans heq)).1 hminus
  · rename_i heq
    exact absurd (List.cons.inj (hcons.symm.trans heq)).1 hplus
  · rw [if_pos hstart]

/-- A printed fraction is read by Lua. -/
theorem tonumber_of_digits {s : String} {n : Nat} {frac : List Char}
    (hs : s.toList = Nat.toDigits 10 n ++ '.' :: frac) (hfrac : ∀ c ∈ frac, isDigit c = true) :
    tonumber s = some (decimalValue s.toList) := by
  have hstart : startsDecimal s.toList = true := by
    rw [hs]
    exact startsDecimal_toDigits n _
  have hdrop : s.toList.dropWhile isDigit = '.' :: frac := by
    rw [hs]
    exact (takeWhile_digits (isDigit_toDigits n) (by simp; decide)).2
  have hall : frac.all isDigit = true := List.all_eq_true.mpr hfrac
  unfold tonumber
  rw [hdrop, hstart]
  show (if (true && frac.all isDigit) = true then _ else _) = _
  rw [hall]
  rfl

end WatchedAgent.Lib.Text
