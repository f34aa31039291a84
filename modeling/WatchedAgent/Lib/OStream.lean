import WatchedAgent.Lib.Numeral

/-!
# `WatchedAgent.Lib.OStream`: formatted output

A `std::ostream` with the state its formatted insertions depend on. The base, the case of the
digits and the fill character stay until they are changed. The width counts for one insertion
(`width_pad`).
-/

set_option autoImplicit false

namespace WatchedAgent.Lib

open WatchedAgent.Lib.Text (upperDigit hexPair)

/-- `std::ostringstream`: what was written, and the format. -/
structure OStream where
  text : List Char := []
  width : Nat := 0
  fill : Char := ' '
  hex : Bool := false
  uppercase : Bool := false

namespace OStream

/-- A formatted insertion: filled up to the width, which is reset. -/
def pad (cs : List Char) (s : OStream) : OStream :=
  { s with text := s.text ++ cs.leftpad s.width s.fill, width := 0 }

/-- `s << c`. -/
def putChar (c : Char) (s : OStream) : OStream := s.pad [c]

/-- The digits of a number in the format of the stream. -/
def digits (n : Nat) (s : OStream) : List Char :=
  let ds := Nat.toDigits (if s.hex then 16 else 10) n
  if s.uppercase then ds.map Char.toUpper else ds

/-- `s << n`. -/
def putNat (n : Nat) (s : OStream) : OStream := s.pad (s.digits n)

/-- `s << std::setw(n)`. -/
def setw (n : Nat) (s : OStream) : OStream := { s with width := n }

/-- `s << std::uppercase`, and `s << std::nouppercase`. -/
def setUppercase (b : Bool) (s : OStream) : OStream := { s with uppercase := b }

/-- `s.str()`. -/
def str (s : OStream) : String := String.ofList s.text

/-- The width is gone after an insertion. -/
@[simp]
theorem width_pad (cs : List Char) (s : OStream) : (s.pad cs).width = 0 := rfl

/-- A character without a width. -/
theorem putChar_of_width {s : OStream} (h : s.width = 0) (c : Char) :
    s.putChar c = { s with text := s.text ++ [c] } := by
  unfold putChar pad
  rw [h]
  rfl

/-- A byte in two upper case digits. -/
theorem leftpad_toDigits (b : UInt8) :
    ((Nat.toDigits 16 b.toNat).map Char.toUpper).leftpad 2 '0' = hexPair b := by
  have hlt : b.toNat < 256 := b.toNat_lt
  rw [Nat.toDigits_eq_if (by decide)]
  unfold hexPair upperDigit
  split
  · rename_i hsmall
    -- One digit, with a zero before it.
    have hhigh : b.toNat / 16 = 0 := by omega
    have hlow : b.toNat % 16 = b.toNat := by omega
    rw [hhigh, hlow]
    rfl
  · rename_i hbig
    rw [Nat.toDigits_of_lt_base (by omega)]
    rfl

end OStream

end WatchedAgent.Lib
