import Mathlib.Data.Int.Log
import Mathlib.Data.Rat.Floor
import WatchedAgent.Lib.Decimal

/-!
# `WatchedAgent.Lib.Strtod`: texts read as doubles

`strtod` of C, with all its forms: blanks and a sign, `inf` and `nan` in any case, hexadecimal
numbers with a binary exponent, and decimal numbers with a decimal exponent. `stod` is `none`
where the function of C++ throws: there is no number, or it is out of range.

A double is a fraction, an infinity or no number, and a fraction that is read is rounded to the
nearest double (`toDouble`). Out of range is what rounds to `2 ^ 1024` and more, and what is
below the least normal double and not a double itself, as in glibc. A range below the normal
doubles is up to the library in the standard.

`stod_of_decimal` is a text of digits and points: its number is that of `decimalValue`.
-/

set_option autoImplicit false

namespace WatchedAgent.Lib.Strtod

open WatchedAgent.Lib.Text

/-- A double. The two zeros are one. -/
inductive Double where
  | num (q : ℚ)
  | inf (negative : Bool)
  | nan
  deriving DecidableEq

namespace Double

/-- `-d`. -/
def neg : Double → Double
  | num q => num (-q)
  | inf negative => inf (!negative)
  | nan => nan

/-- `q >= d`, for a double `q` that is a fraction. -/
def le (q : ℚ) : Double → Bool
  | num d => d ≤ q
  | inf negative => negative
  | nan => false

end Double

/-! ### Rounding -/

/-- The nearest whole number, and the even one of two. -/
def roundHalfEven (x : ℚ) : Int :=
  let below := x.floor
  if x - below < 1 / 2 then below
  else if 1 / 2 < x - below then below + 1
  else if below % 2 = 0 then below else below + 1

/-- The distance of the doubles around a fraction. -/
def ulp (q : ℚ) : ℚ := 2 ^ max (Int.log 2 |q| - 52) (-1074)

/-- The nearest double, and `none` where it is out of range. -/
def toDouble (q : ℚ) : Option ℚ :=
  let r := roundHalfEven (q / ulp q) * ulp q
  if (2 : ℚ) ^ (1024 : Int) ≤ |r| then none
  else if |r| < (2 : ℚ) ^ (-1022 : Int) ∧ r ≠ q then none
  else some r

theorem toDouble_zero : toDouble 0 = some 0 := by
  have hfloor : (0 : ℚ).floor = 0 := rfl
  simp [toDouble, roundHalfEven, hfloor]

/-! ### Numbers -/

/-- The digits of a number without its exponent: their value, how many stand after the point,
and the rest of the text. -/
structure Mantissa where
  value : Nat
  places : Nat := 0
  rest : List Char

/-- Is it a digit of the base? -/
def isDigitOf (base : Nat) (c : Char) : Bool := (digit? base c).isSome

/-- Digits with a point, one digit at least. -/
def mantissa (base : Nat) (cs : List Char) : Option Mantissa :=
  let whole := cs.takeWhile (isDigitOf base)
  match cs.dropWhile (isDigitOf base) with
  | '.' :: after =>
      let frac := after.takeWhile (isDigitOf base)
      if whole = [] ∧ frac = [] then none
      else some { value := digitsValue base 0 (whole ++ frac), places := frac.length
                  rest := after.dropWhile (isDigitOf base) }
  | rest => if whole = [] then none else some { value := digitsValue base 0 whole, rest }

/-- The exponent after its mark. Without digits there is none. -/
def exponent (isMark : Char → Bool) : List Char → Int
  | [] => 0
  | c :: cs =>
      if isMark c then
        match cs with
        | '-' :: ds => -(digitsValue 10 0 ds : Int)
        | '+' :: ds => digitsValue 10 0 ds
        | ds => digitsValue 10 0 ds
      else 0

/-- A decimal number. -/
def decimal (cs : List Char) : Option ℚ :=
  (mantissa 10 cs).map (fun m =>
    m.value * 10 ^ (exponent (fun c => c == 'e' || c == 'E') m.rest - m.places))

/-- A hexadecimal number. -/
def hexadecimal : List Char → Option ℚ
  | '0' :: x :: cs =>
      if x = 'x' ∨ x = 'X' then
        (mantissa 16 cs).map (fun m =>
          m.value * 2 ^ (exponent (fun c => c == 'p' || c == 'P') m.rest - 4 * m.places))
      else none
  | _ => none

/-- Does the text start with the word, in any case? -/
def startsWith (word : String) (cs : List Char) : Bool :=
  word.toList.isPrefixOf (cs.map Char.toLower)

/-- A number without its sign. -/
def magnitude (cs : List Char) : Option Double :=
  if startsWith "inf" cs then some (.inf false)
  else if startsWith "nan" cs then some .nan
  else
    -- `0x` without a digit after it is the number 0.
    ((hexadecimal cs).orElse (fun _ => decimal cs)).bind (fun q => (toDouble q).map .num)

/-- `std::stod`, `none` when it throws. -/
def stod (s : String) : Option Double :=
  match s.toList.dropWhile isSpace with
  | '-' :: cs => (magnitude cs).map Double.neg
  | '+' :: cs => magnitude cs
  | cs => magnitude cs

/-! ### Digits and points -/

theorem isDigitOf_ten : isDigitOf 10 = isDigit := by
  funext c
  unfold isDigitOf digit? isDigit
  by_cases hc : '0' ≤ c ∧ c ≤ '9'
  · have hvalue : c.toNat - '0'.toNat < 10 := by
      have hle : c.toNat ≤ '9'.toNat := hc.2
      have hnine : '9'.toNat = '0'.toNat + 9 := rfl
      omega
    rw [if_pos hc, if_pos hvalue, decide_eq_true hc.1, decide_eq_true hc.2]
    rfl
  · have hfalse : (decide ('0' ≤ c) && decide (c ≤ '9')) = false := by
      rw [Bool.and_eq_false_iff, decide_eq_false_iff_not, decide_eq_false_iff_not]
      exact not_and_or.mp hc
    rw [if_neg hc, hfalse]
    -- A letter has a value of 10 and more.
    split
    · rw [if_neg (by omega)]
      rfl
    · split
      · rw [if_neg (by omega)]
        rfl
      · rfl

/-- The text has only digits and points, as a group `[0-9.]*` has. -/
def IsDecimalText (cs : List Char) : Prop := ∀ c ∈ cs, isDigit c = true ∨ c = '.'

/-- A property that holds for the eleven characters of such a text. -/
theorem IsDecimalText.all {cs : List Char} (h : IsDecimalText cs) {p : Char → Prop}
    (hp : ∀ c ∈ "0123456789.".toList, p c) : ∀ c ∈ cs, p c := by
  have hdigits : ∀ n < 58, 48 ≤ n → Char.ofNat n ∈ "0123456789.".toList := by decide
  intro c hc
  refine hp c ?_
  rcases h c hc with hdigit | rfl
  · obtain ⟨hlow, hhigh⟩ := (Bool.and_eq_true _ _).mp hdigit
    have hlow : 48 ≤ c.toNat := of_decide_eq_true hlow
    have hhigh : c.toNat ≤ 57 := of_decide_eq_true hhigh
    rw [← Char.ofNat_toNat c]
    exact hdigits c.toNat (by omega) hlow
  · decide

/-- Digits and points have no exponent. -/
theorem exponent_of_decimal {cs : List Char} (h : IsDecimalText cs) :
    exponent (fun c => c == 'e' || c == 'E') cs = 0 := by
  cases cs with
  | nil => rfl
  | cons c cs =>
      have hmark : (c == 'e' || c == 'E') = false :=
        h.all (p := fun c => (c == 'e' || c == 'E') = false) (by decide) c List.mem_cons_self
      show (if (c == 'e' || c == 'E') = true then _ else _) = _
      rw [hmark]
      rfl

/-- A text starts as a number if its mantissa has a digit. -/
theorem startsDecimal_eq (cs : List Char) : startsDecimal cs
    = match cs.dropWhile isDigit with
      | '.' :: frac => !decide (cs.takeWhile isDigit = [] ∧ frac.takeWhile isDigit = [])
      | _ => !decide (cs.takeWhile isDigit = []) := by
  have hfirst : ∀ {c : Char} {cs : List Char}, isDigit c = true →
      (c :: cs).takeWhile isDigit ≠ [] := by
    intro c cs hc
    rw [List.takeWhile_cons_of_pos hc]
    exact List.cons_ne_nil _ _
  cases cs with
  | nil => rfl
  | cons c cs =>
      by_cases hc : isDigit c = true
      · rw [startsDecimal_of_head hc]
        split
        · rw [decide_eq_false (fun h => hfirst hc h.1)]
          rfl
        · rw [decide_eq_false (hfirst hc)]
          rfl
      · have hnone : (c :: cs).takeWhile isDigit = [] := List.takeWhile_cons_of_neg hc
        rw [hnone, List.dropWhile_cons_of_neg hc]
        unfold startsDecimal
        split
        · rename_i d ds heq
          obtain ⟨rfl, rfl⟩ := List.cons.inj heq
          cases hd : isDigit d with
          | true => simp [List.takeWhile_cons_of_pos hd]
          | false => simp [List.takeWhile_cons_of_neg (by simp [hd] : ¬ isDigit d = true)]
        · rename_i hnot heq
          obtain ⟨rfl, rfl⟩ := List.cons.inj heq
          split
          · rename_i frac heq'
            obtain ⟨rfl, rfl⟩ := List.cons.inj heq'
            cases cs with
            | nil => rfl
            | cons d ds => exact (hnot d ds rfl rfl).elim
          · simpa using hc
        · rename_i heq
          exact absurd heq (List.cons_ne_nil _ _)

/-- A text of digits and points is a number if it starts as one. -/
theorem decimal_of_decimal {cs : List Char} (h : IsDecimalText cs) :
    decimal cs = if startsDecimal cs then some (decimalValue cs) else none := by
  have hsplit : cs.takeWhile isDigit ++ cs.dropWhile isDigit = cs :=
    List.takeWhile_append_dropWhile
  have hrest : IsDecimalText (cs.dropWhile isDigit) := by
    intro c hc
    refine h c ?_
    rw [← hsplit]
    exact List.mem_append_right _ hc
  unfold decimal mantissa decimalValue
  rw [isDigitOf_ten, startsDecimal_eq]
  cases hdrop : cs.dropWhile isDigit with
  | nil =>
      dsimp only
      by_cases hnone : cs.takeWhile isDigit = []
      · rw [if_pos hnone, decide_eq_true hnone]
        rfl
      · rw [if_neg hnone, decide_eq_false hnone, Option.map_some]
        simp [exponent]
  | cons c after =>
      -- What follows the digits is a point.
      have hnot := List.head?_dropWhile_not isDigit cs
      rw [hdrop, List.head?_cons] at hnot
      have hmem : c ∈ cs.dropWhile isDigit := by
        rw [hdrop]
        exact List.mem_cons_self
      obtain rfl : c = '.' := (hrest c hmem).resolve_left (by simpa using hnot)
      have hafter : IsDecimalText (after.dropWhile isDigit) := by
        intro c hc
        refine hrest c ?_
        rw [hdrop]
        exact List.mem_cons_of_mem _ ((List.dropWhile_sublist _).mem hc)
      show Option.map _ (if cs.takeWhile isDigit = [] ∧ after.takeWhile isDigit = [] then none
          else some _)
        = if (!decide (cs.takeWhile isDigit = [] ∧ after.takeWhile isDigit = [])) = true
          then some (_ / _) else none
      by_cases hnone : cs.takeWhile isDigit = [] ∧ after.takeWhile isDigit = []
      · rw [if_pos hnone, decide_eq_true hnone]
        rfl
      · rw [if_neg hnone, decide_eq_false hnone, Option.map_some]
        dsimp only
        rw [exponent_of_decimal hafter, Bool.not_false, if_pos rfl, zero_sub, zpow_neg,
          zpow_natCast, ← div_eq_mul_inv]

theorem not_startsWith {word : String} {w : Char} {ws : List Char} (hword : word.toList = w :: ws)
    {cs : List Char} (h : ∀ c ∈ cs, c.toLower ≠ w) : startsWith word cs = false := by
  unfold startsWith
  rw [hword]
  cases cs with
  | nil => rfl
  | cons c cs =>
      have hne : (w == c.toLower) = false := beq_eq_false_iff_ne.mpr (h c List.mem_cons_self).symm
      rw [List.map_cons, List.isPrefixOf_cons_cons, hne, Bool.false_and]

/-- A text of digits and points is read if it starts with a number that is in range. -/
theorem stod_of_decimal {s : String} (h : IsDecimalText s.toList) : stod s
    = if startsDecimal s.toList then (toDouble (decimalValue s.toList)).map .num else none := by
  have hhex : hexadecimal s.toList = none := by
    unfold hexadecimal
    split
    · rename_i x cs heq
      have hx : ¬ (x = 'x' ∨ x = 'X') :=
        h.all (p := fun c => ¬ (c = 'x' ∨ c = 'X')) (by decide) x (by rw [heq]; simp)
      rw [if_neg hx]
    · rfl
  have hmagnitude : magnitude s.toList = if startsDecimal s.toList
      then (toDouble (decimalValue s.toList)).map .num else none := by
    unfold magnitude
    rw [not_startsWith (w := 'i') rfl (h.all (by decide)),
      not_startsWith (w := 'n') rfl (h.all (by decide)), hhex, decimal_of_decimal h]
    cases startsDecimal s.toList <;> rfl
  have hdrop : s.toList.dropWhile isSpace = s.toList := by
    cases hs : s.toList with
    | nil => rfl
    | cons c cs =>
        have hc : isSpace c = false :=
          h.all (p := fun c => isSpace c = false) (by decide) c (by rw [hs]; simp)
        rw [List.dropWhile_cons_of_neg (by simp [hc])]
  unfold stod
  rw [hdrop]
  split
  · rename_i cs heq
    exact absurd rfl (h.all (p := fun c => c ≠ '-') (by decide) '-' (by rw [heq]; simp))
  · rename_i cs heq
    exact absurd rfl (h.all (p := fun c => c ≠ '+') (by decide) '+' (by rw [heq]; simp))
  · exact hmagnitude

end WatchedAgent.Lib.Strtod
