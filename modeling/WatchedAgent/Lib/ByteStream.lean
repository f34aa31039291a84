import Mathlib.Data.List.Basic

/-!
# `WatchedAgent.Lib.ByteStream`: binary files read block by block

The part of a binary `std::ifstream` a reader of blocks uses. Unlike the `getline` of
`IStream`, a short `read` sets `eofbit` and `failbit` together, and the next `read` fails.
A read that ends exactly at the end of the file sets no flag.

`read_of_good` is the rule: the bytes are the next ones of the file.
-/

set_option autoImplicit false

namespace WatchedAgent.Lib

/-- An input stream over the bytes of a file. -/
structure ByteStream where
  content : List UInt8
  pos : Nat := 0
  eofbit : Bool := false
  failbit : Bool := false
  deriving DecidableEq

namespace ByteStream

/-- `good()`: neither flag is set. -/
def good (s : ByteStream) : Bool := !s.eofbit && !s.failbit

/-- `tellg()`: `none` for `-1`. -/
def tellg (s : ByteStream) : Option Nat := if s.good then some s.pos else none

/-- `seekg(off, base)`, with the position that `off` and `base` name. -/
def seekg (s : ByteStream) (pos : Nat) : ByteStream :=
  let s := { s with eofbit := false }
  if s.failbit then s else { s with pos }

/-- `read(buffer, n)`: the stream afterwards, and the `gcount()` bytes it put into the
buffer. -/
def read (s : ByteStream) (n : Nat) : ByteStream × List UInt8 :=
  if s.good then
    let bytes := (s.content.drop s.pos).take n
    let short := decide (bytes.length < n)
    ({ s with pos := s.pos + bytes.length, eofbit := short, failbit := short }, bytes)
  else ({ s with failbit := true }, [])

/-- A good stream gives the next bytes. It stays good where it could give them all. -/
theorem read_of_good {s : ByteStream} (h : s.good = true) (n : Nat) :
    (s.read n).2 = (s.content.drop s.pos).take n ∧ (s.read n).1.content = s.content ∧
      ((s.read n).2.length = n →
        (s.read n).1.good = true ∧ (s.read n).1.pos = s.pos + n) := by
  unfold read
  rw [if_pos h]
  refine ⟨rfl, rfl, fun hfull => ?_⟩
  dsimp only at hfull ⊢
  unfold good
  rw [hfull, decide_eq_false (Nat.lt_irrefl n)]
  exact ⟨rfl, rfl⟩

end ByteStream

end WatchedAgent.Lib
