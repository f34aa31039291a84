import WatchedAgent.Lib.Text

/-!
# `WatchedAgent.Lib.Numeral`: printed numbers are read back

A stream prints a number as the digits of `Nat.toDigits`, and the C functions read the
longest run of digits. So a printed number is read back where a character follows it that
is no digit:

* `digitsValue_toDigits`: the digits, in a base up to 16.
* `strtoul_toDigits`: `strtoul` of a text that starts with them.
* `decimalFields_toDigits`: one `>>` of an `istream`.
* `strtoul_hexPairs`: a row of bytes in `%02X`, which no other character has to end.
-/

set_option autoImplicit false

namespace WatchedAgent.Lib.Text

/-- The text ends, or goes on with a character that does not belong to a number. -/
def Ends (base : Nat) (cs : List Char) : Prop :=
  ∀ c ∈ cs.head?, digit? base c = none ∧ c ≠ 'x' ∧ c ≠ 'X'

/-- A shorter text ends where the longer one does. -/
theorem Ends.take {base : Nat} {cs : List Char} (h : Ends base cs) (k : Nat) :
    Ends base (cs.take k) := by
  intro c hc
  cases k with
  | zero => simp at hc
  | succ k => exact h c (by rwa [List.head?_take, if_neg (Nat.succ_ne_zero k)] at hc)

/-- A base the digits of `Nat.toDigits` are read in. -/
structure IsBase (base : Nat) : Prop where
  one_lt : 1 < base
  le : base ≤ 16

theorem isBase_ten : IsBase 10 := ⟨by decide, by decide⟩

theorem isBase_sixteen : IsBase 16 := ⟨by decide, by decide⟩

/-! ### Digits -/

theorem digit?_digitChar {base d : Nat} (hbase : IsBase base) (hd : d < base) :
    digit? base (Nat.digitChar d) = some d := by
  have hall : ∀ base < 17, ∀ d < base, digit? base (Nat.digitChar d) = some d := by decide
  exact hall base (Nat.lt_succ_of_le hbase.le) d hd

/-- The digits of a number are digits. -/
theorem mem_toDigits {base n : Nat} (hbase : IsBase base) {c : Char}
    (hc : c ∈ Nat.toDigits base n) : ∃ d < base, c = Nat.digitChar d := by
  induction n using Nat.strong_induction_on with
  | _ n ih =>
      rw [Nat.toDigits_eq_if hbase.one_lt] at hc
      split at hc
      · rename_i hlt
        exact ⟨n, hlt, List.mem_singleton.mp hc⟩
      · rename_i hge
        have hone := hbase.one_lt
        rcases List.mem_append.mp hc with hc | hc
        · exact ih (n / base) (Nat.div_lt_self (by omega) hone) hc
        · exact ⟨n % base, Nat.mod_lt n (by omega), List.mem_singleton.mp hc⟩

/-- What no digit of a number is, checked on the sixteen digits. -/
theorem not_mem_toDigits {base n : Nat} (hbase : IsBase base) {c : Char}
    (hc : ∀ d < 16, c ≠ Nat.digitChar d) : c ∉ Nat.toDigits base n := by
  intro hmem
  obtain ⟨d, hd, heq⟩ := mem_toDigits hbase hmem
  exact hc d (Nat.lt_of_lt_of_le hd hbase.le) heq

theorem all_toDigits {base n : Nat} (hbase : IsBase base) {p : Char → Prop}
    (hp : ∀ d < base, p (Nat.digitChar d)) : ∀ c ∈ Nat.toDigits base n, p c := by
  intro c hc
  obtain ⟨d, hd, rfl⟩ := mem_toDigits hbase hc
  exact hp d hd

/-- The same for a number that is filled up with zeros. -/
theorem all_leftpad {base n : Nat} (hbase : IsBase base) (width : Nat) {p : Char → Prop}
    (hp : ∀ d < base, p (Nat.digitChar d)) :
    ∀ c ∈ (Nat.toDigits base n).leftpad width '0', p c := by
  intro c hc
  rcases List.mem_append.mp hc with hc | hc
  · rw [List.eq_of_mem_replicate hc]
    exact hp 0 (Nat.lt_of_succ_lt hbase.one_lt)
  · exact all_toDigits hbase hp c hc

/-- The digits of a number spell it, whatever follows. -/
theorem digitsValue_toDigits {base : Nat} (hbase : IsBase base) (n : Nat) (rest : List Char) :
    digitsValue base 0 (Nat.toDigits base n ++ rest) = digitsValue base n rest := by
  induction n using Nat.strong_induction_on generalizing rest with
  | _ n ih =>
      have hone := hbase.one_lt
      rw [Nat.toDigits_eq_if hone]
      split
      · rename_i hlt
        rw [List.singleton_append, digitsValue, digit?_digitChar hbase hlt]
        dsimp only
        rw [Nat.zero_mul, Nat.zero_add]
      · -- The last digit follows the digits of the quotient.
        have hmod : n % base < base := Nat.mod_lt n (by omega)
        rw [List.append_assoc, ih (n / base) (Nat.div_lt_self (by omega) hone),
          List.singleton_append, digitsValue, digit?_digitChar hbase hmod]
        dsimp only
        rw [Nat.div_add_mod']

theorem digitsValue_of_ends {base : Nat} (n : Nat) {rest : List Char} (h : Ends base rest) :
    digitsValue base n rest = n := by
  cases rest with
  | nil => rfl
  | cons c cs =>
      rw [digitsValue, (h c rfl).1]

/-! ### `strtoul` -/

/-- A number has a first digit. -/
theorem exists_toDigits (base n : Nat) : ∃ c cs, Nat.toDigits base n = c :: cs :=
  List.exists_cons_of_ne_nil Nat.toDigits_ne_nil

/-- The digits of a number are not a `0x` prefix. -/
theorem dropHexPrefix_toDigits {base : Nat} (hbase : IsBase base) (n : Nat) {rest : List Char}
    (h : Ends base rest) :
    dropHexPrefix base (Nat.toDigits base n ++ rest) = Nat.toDigits base n ++ rest := by
  have hx : ∀ d < 16, Nat.digitChar d ≠ 'x' ∧ Nat.digitChar d ≠ 'X' := by decide
  obtain ⟨d, ds, hds⟩ := exists_toDigits base n
  unfold dropHexPrefix
  split
  · rename_i y c cs heq
    have hno : ¬ (base = 16 ∧ (y = 'x' ∨ y = 'X') ∧ (digit? 16 c).isSome = true) := by
      rintro ⟨-, hy, -⟩
      rw [hds, List.cons_append] at heq
      have htail := (List.cons.inj heq).2
      cases ds with
      | nil =>
          -- The number has one digit, so the mark would be the character after it.
          have hhead : rest.head? = some y := by
            rw [List.nil_append] at htail
            rw [htail]
            rfl
          obtain ⟨-, hlow, hup⟩ := h y hhead
          exact hy.elim hlow hup
      | cons y' ds =>
          obtain rfl : y' = y := (List.cons.inj htail).1
          obtain ⟨k, hk, rfl⟩ := mem_toDigits hbase (n := n) (c := y') (by simp [hds])
          obtain ⟨hlow, hup⟩ := hx k (Nat.lt_of_lt_of_le hk hbase.le)
          exact hy.elim hlow hup
    rw [if_neg hno, heq]
  · rfl

/-- A printed number is read back by `strtoul`. -/
theorem strtoul_toDigits {base n : Nat} (hbase : IsBase base) {s : String} {rest : List Char}
    (hs : s.toList = Nat.toDigits base n ++ rest) (h : Ends base rest)
    (hn : n ≤ 0xffffffffffffffff) : strtoul base s = n := by
  have hspace : ∀ d < 16, isSpace (Nat.digitChar d) = false ∧ Nat.digitChar d ≠ '-' ∧
      Nat.digitChar d ≠ '+' := by decide
  obtain ⟨d, ds, hds⟩ := exists_toDigits base n
  obtain ⟨k, hk, hd⟩ := mem_toDigits hbase (n := n) (c := d) (by simp [hds])
  obtain ⟨hblank, hminus, hplus⟩ := hd ▸ hspace k (Nat.lt_of_lt_of_le hk hbase.le)
  -- The text starts with a digit: no blank and no sign is skipped.
  have hdrop : s.toList.dropWhile isSpace = Nat.toDigits base n ++ rest := by
    rw [hs, hds, List.cons_append, List.dropWhile_cons_of_neg (by simp [hblank])]
  have hvalue : min (digitsValue base 0 (dropHexPrefix base (Nat.toDigits base n ++ rest)))
      0xffffffffffffffff = n := by
    rw [dropHexPrefix_toDigits hbase n h, digitsValue_toDigits hbase, digitsValue_of_ends n h]
    exact Nat.min_eq_left hn
  unfold strtoul
  rw [hdrop]
  dsimp only
  split
  · rename_i heq
    rw [hds, List.cons_append] at heq
    exact absurd (List.cons.inj heq).1 hminus
  · rename_i heq
    rw [hds, List.cons_append] at heq
    exact absurd (List.cons.inj heq).1 hplus
  · exact hvalue

/-! ### Decimal fields -/

/-- A printed number and the character after it are one field. -/
theorem decimalFields_toDigits (k n : Nat) {rest : List Char}
    (h : ∀ c ∈ rest.head?, isDigit c = false ∧ isSpace c = false) :
    decimalFields (k + 1) (Nat.toDigits 10 n ++ rest)
      = min n 0xffff :: decimalFields k (rest.drop 1) := by
  have hchars : ∀ c ∈ Nat.toDigits 10 n, isDigit c = true ∧ isSpace c = false :=
    all_toDigits isBase_ten (by decide)
  have hdigits : ∀ c ∈ Nat.toDigits 10 n, isDigit c = true := fun c hc => (hchars c hc).1
  obtain ⟨d, ds, hds⟩ := exists_toDigits 10 n
  have hblank : (Nat.toDigits 10 n ++ rest).dropWhile isSpace = Nat.toDigits 10 n ++ rest := by
    rw [hds, List.cons_append, List.dropWhile_cons_of_neg]
    simp [(hchars d (by simp [hds])).2]
  have htake : (Nat.toDigits 10 n ++ rest).takeWhile isDigit = Nat.toDigits 10 n := by
    rw [List.takeWhile_append_of_pos hdigits]
    cases rest with
    | nil => simp
    | cons c cs => rw [List.takeWhile_cons_of_neg (by simp [(h c rfl).1]), List.append_nil]
  have hdrop : (Nat.toDigits 10 n ++ rest).dropWhile isDigit = rest := by
    rw [List.dropWhile_append_of_pos hdigits]
    cases rest with
    | nil => rfl
    | cons c cs => rw [List.dropWhile_cons_of_neg (by simp [(h c rfl).1])]
  have hrest : rest.dropWhile isSpace = rest := by
    cases rest with
    | nil => rfl
    | cons c cs => rw [List.dropWhile_cons_of_neg (by simp [(h c rfl).2])]
  have hvalue : digitsValue 10 0 (Nat.toDigits 10 n) = n := by
    have hread := digitsValue_toDigits isBase_ten n []
    rwa [List.append_nil] at hread
  rw [decimalFields, hblank, htake, hdrop, hrest, hvalue, if_neg]
  simp

/-! ### Bytes of two digits -/

/-- A digit of `%X`. -/
def upperDigit (d : Nat) : Char := (Nat.digitChar d).toUpper

/-- A byte as `%02X`. -/
def hexPair (b : UInt8) : List Char := [upperDigit (b.toNat / 16), upperDigit (b.toNat % 16)]

/-- The bytes of a row, the first one first. -/
def hexPairs (bs : List UInt8) : List Char := bs.flatMap hexPair

/-- The number that a row of bytes spells, the first one the highest. -/
def bytesValue (bs : List UInt8) : Nat := bs.foldl (fun acc b => acc * 256 + b.toNat) 0

theorem digit?_upperDigit {d : Nat} (hd : d < 16) : digit? 16 (upperDigit d) = some d := by
  have hall : ∀ d < 16, digit? 16 (upperDigit d) = some d := by decide
  exact hall d hd

/-- A digit of base 16 is no blank, no sign and no mark. -/
theorem ne_of_digit? {c : Char} (h : (digit? 16 c).isSome = true) : isSpace c = false ∧
    c ≠ '-' ∧ c ≠ '+' ∧ c ≠ 'x' ∧ c ≠ 'X' ∧ c ≠ ':' := by
  have hnot : ∀ x ∈ [' ', '\t', '\n', '\x0b', '\x0c', '\r', '-', '+', 'x', 'X', ':'], c ≠ x := by
    intro x hx heq
    have hnone : ∀ x ∈ [' ', '\t', '\n', '\x0b', '\x0c', '\r', '-', '+', 'x', 'X', ':'],
        (digit? 16 x).isSome = false := by decide
    rw [heq, hnone x hx] at h
    exact absurd h (by simp)
  simp only [List.forall_mem_cons] at hnot
  simp [isSpace, hnot]

theorem isSome_of_mem_hexPairs {bs : List UInt8} {c : Char} (hc : c ∈ hexPairs bs) :
    (digit? 16 c).isSome = true := by
  obtain ⟨b, -, hc⟩ := List.mem_flatMap.mp hc
  have hlt := b.toNat_lt_size
  simp only [UInt8.size] at hlt
  simp only [hexPair, List.mem_cons, List.not_mem_nil, or_false] at hc
  rcases hc with rfl | rfl
  · rw [digit?_upperDigit (by omega)]
    rfl
  · rw [digit?_upperDigit (by omega)]
    rfl

/-- A row of bytes spells its number. -/
theorem digitsValue_hexPairs (bs : List UInt8) (acc : Nat) : digitsValue 16 acc (hexPairs bs)
    = bs.foldl (fun acc b => acc * 256 + b.toNat) acc := by
  induction bs generalizing acc with
  | nil => rfl
  | cons b bs ih =>
      have hlt := b.toNat_lt_size
      simp only [UInt8.size] at hlt
      have hvalue : (acc * 16 + b.toNat / 16) * 16 + b.toNat % 16 = acc * 256 + b.toNat := by
        omega
      have hstep : ∀ (d acc : Nat) (cs : List Char), d < 16 →
          digitsValue 16 acc (upperDigit d :: cs) = digitsValue 16 (acc * 16 + d) cs := by
        intro d acc cs hd
        rw [digitsValue, digit?_upperDigit hd]
      show digitsValue 16 acc (upperDigit (b.toNat / 16) :: upperDigit (b.toNat % 16)
        :: hexPairs bs) = _
      rw [hstep _ _ _ (by omega), hstep _ _ _ (by omega), hvalue, ih, List.foldl_cons]

/-- Digits only are not a `0x` prefix. -/
theorem dropHexPrefix_of_digits {cs : List Char} (h : ∀ c ∈ cs, (digit? 16 c).isSome = true) :
    dropHexPrefix 16 cs = cs := by
  unfold dropHexPrefix
  split
  · rename_i x c cs
    obtain ⟨-, -, -, hlow, hup, -⟩ := ne_of_digit? (h x (by simp))
    rw [if_neg (fun hx => hx.2.1.elim hlow hup)]
  · rfl

/-- A row of bytes is read by `strtoul` as its number. -/
theorem strtoul_hexPairs {s : String} {bs : List UInt8} (hs : s.toList = hexPairs bs)
    (hle : bytesValue bs ≤ 0xffffffffffffffff) : strtoul 16 s = bytesValue bs := by
  have hdigits : ∀ c ∈ hexPairs bs, (digit? 16 c).isSome = true :=
    fun c hc => isSome_of_mem_hexPairs hc
  have hvalue : min (digitsValue 16 0 (dropHexPrefix 16 (hexPairs bs))) 0xffffffffffffffff
      = bytesValue bs := by
    rw [dropHexPrefix_of_digits hdigits, digitsValue_hexPairs]
    exact Nat.min_eq_left hle
  have hdrop : s.toList.dropWhile isSpace = hexPairs bs := by
    rw [hs, List.dropWhile_eq_self_iff]
    intro hpos
    have hc := (ne_of_digit? (hdigits _ (List.getElem_mem hpos))).1
    rw [hc]
    exact Bool.false_ne_true
  unfold strtoul
  rw [hdrop]
  dsimp only
  split
  · rename_i cs heq
    exact absurd rfl (ne_of_digit? (hdigits '-' (by simp [heq]))).2.1
  · rename_i cs heq
    exact absurd rfl (ne_of_digit? (hdigits '+' (by simp [heq]))).2.2.1
  · exact hvalue

end WatchedAgent.Lib.Text
