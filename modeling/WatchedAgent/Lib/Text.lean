import Mathlib.Data.List.Basic
import Mathlib.Data.List.TakeWhile

/-!
# `WatchedAgent.Lib.Text`: the C and C++ text functions a daemon parses with

Text is a Lean `String`, one `Char` for each `char` of the source. The functions follow
the documented behaviour of the standard library:

* `tokens`: the words an `istream_iterator<std::string>` yields.
* `atoi`, `strtoul`: leading blanks, a sign, then the longest run of digits.
* `find`, `rfind`, `substr`: positions count from zero, `none` is `npos` (or the
  `out_of_range` exception of `substr`).
* `toUInt16`, `toUInt32`: the conversions to `uint16_t` and `uint32_t`.

All of them recurse on the list of characters, so that closed terms evaluate.
-/

set_option autoImplicit false

namespace WatchedAgent.Lib.Text

-- A property of the characters of a text is decided along the text. The search must not take
-- the instances for all characters there are.
instance (priority := 1100) decidableAll (p : Char → Prop) [DecidablePred p] (cs : List Char) :
    Decidable (∀ c ∈ cs, p c) := List.decidableBAll p cs

instance (priority := 1100) decidableAny (p : Char → Prop) [DecidablePred p] (cs : List Char) :
    Decidable (∃ c ∈ cs, p c) := List.decidableBEx p cs

/-- `isspace` of the C locale. -/
def isSpace (c : Char) : Bool :=
  c == ' ' || c == '\t' || c == '\n' || c == '\x0b' || c == '\x0c' || c == '\r'

/-- `isdigit`. -/
def isDigit (c : Char) : Bool := '0' ≤ c && c ≤ '9'

/-- The words of `cs`, with the reversed word read so far in `cur`. -/
def tokensAux : List Char → List Char → List String
  | [], cur => if cur.isEmpty then [] else [String.ofList cur.reverse]
  | c :: cs, cur =>
      if isSpace c then
        if cur.isEmpty then tokensAux cs []
        else String.ofList cur.reverse :: tokensAux cs []
      else tokensAux cs (c :: cur)

/-- The words of a line, split at white space. -/
def tokens (line : String) : List String := tokensAux line.toList []

/-- The value of a digit in the given base. -/
def digit? (base : Nat) (c : Char) : Option Nat :=
  let d :=
    if '0' ≤ c ∧ c ≤ '9' then c.toNat - '0'.toNat
    else if 'a' ≤ c ∧ c ≤ 'z' then c.toNat - 'a'.toNat + 10
    else if 'A' ≤ c ∧ c ≤ 'Z' then c.toNat - 'A'.toNat + 10
    else base
  if d < base then some d else none

/-- The number the longest run of digits spells, on top of `acc`. -/
def digitsValue (base : Nat) : Nat → List Char → Nat
  | acc, [] => acc
  | acc, c :: cs =>
      match digit? base c with
      | some d => digitsValue base (acc * base + d) cs
      | none => acc

/-- `atoi`, as the number the digits spell. A value outside `int` is undefined in C; the GNU
library cuts it to 32 bits as long as it fits a `long`, so `toUInt32 (atoi s)` is what a program
sees of numbers below 2^63. From 2^63 on that library saturates, and this definition does not. -/
def atoi (s : String) : Int :=
  match s.toList.dropWhile isSpace with
  | '-' :: cs => -(digitsValue 10 0 cs : Int)
  | '+' :: cs => digitsValue 10 0 cs
  | cs => digitsValue 10 0 cs

/-- The optional `0x` prefix of base 16. -/
def dropHexPrefix (base : Nat) : List Char → List Char
  | '0' :: x :: c :: cs =>
      if base = 16 ∧ (x = 'x' ∨ x = 'X') ∧ (digit? 16 c).isSome then c :: cs
      else '0' :: x :: c :: cs
  | cs => cs

/-- `strtoul` for a 64-bit `unsigned long`: saturates, and a minus sign negates modulo
`2 ^ 64`. -/
def strtoul (base : Nat) (s : String) : Nat :=
  let value (cs : List Char) := min (digitsValue base 0 (dropHexPrefix base cs)) 0xffffffffffffffff
  match s.toList.dropWhile isSpace with
  | '-' :: cs => (0x10000000000000000 - value cs) % 0x10000000000000000
  | '+' :: cs => value cs
  | cs => value cs

/-- The conversion to `uint32_t`. -/
def toUInt32 (i : Int) : Nat := (i % 0x100000000).toNat

/-- The conversion to `uint16_t`. -/
def toUInt16 (n : Nat) : Nat := n % 0x10000

/-- `s.find(c, from)`. -/
def find (s : String) (c : Char) (start : Nat) : Option Nat :=
  ((s.toList.drop start).findIdx? (· == c)).map (· + start)

/-- `s.rfind(c)`. -/
def rfind (s : String) (c : Char) : Option Nat :=
  (s.toList.reverse.findIdx? (· == c)).map (fun i => s.length - 1 - i)

/-- `s.substr(pos)`, `none` when it throws. -/
def substr (s : String) (pos : Nat) : Option String :=
  if pos ≤ s.length then some (String.ofList (s.toList.drop pos)) else none

/-- `s.substr(pos, n)`, `none` when it throws. -/
def substrN (s : String) (pos n : Nat) : Option String :=
  if pos ≤ s.length then some (String.ofList ((s.toList.drop pos).take n)) else none

/-- `npos` plus `k`, modulo `2 ^ 64`: what the source gets when it adds `k` to a position
that was not found. -/
def posAdd (p : Option Nat) (k : Nat) : Nat :=
  match p with
  | some i => i + k
  | none => k - 1

/-- A position minus `k` as the length of a `substr`. Modulo `2 ^ 64` it is more than any
text has where `k` is greater, so `whole` is taken then. -/
def posSub (p : Option Nat) (k whole : Nat) : Nat :=
  match p with
  | some i => if k ≤ i then i - k else whole
  | none => whole

/-- Does `word` occur in `s` (`s.find(word) != npos`)? -/
def contains (s word : String) : Bool :=
  s.toList.tails.any (fun t => word.toList.isPrefixOf t)

/-- At most `n` decimal numbers, each followed by one separating character: the reads
`s >> a >> dot >> b ...`. The first read that finds no digit ends the list. -/
def decimalFields : Nat → List Char → List Nat
  | 0, _ => []
  | n + 1, cs =>
      let cs := cs.dropWhile isSpace
      let digits := cs.takeWhile isDigit
      if digits.isEmpty then []
      else
        min (digitsValue 10 0 digits) 0xffff
          :: decimalFields n (((cs.dropWhile isDigit).dropWhile isSpace).drop 1)

/-- `std::hex << n`. -/
def hex (n : Nat) : String := String.ofList (Nat.toDigits 16 n)

/-- The text after the last `/`: `path.substr(path.rfind("/")+1)`. -/
def basename (path : String) : String :=
  String.ofList (path.toList.reverse.takeWhile (· != '/')).reverse

/-- `s.c_str()` as a C function reads it: the text up to the first null character. -/
def cstr (s : String) : String := String.ofList (s.toList.takeWhile (· != '\x00'))

/-- The C text of a concatenation: a null character in the first part hides the second. -/
theorem cstr_append (a b : String) :
    cstr (a ++ b) = if '\x00' ∈ a.toList then cstr a else a ++ cstr b := by
  unfold cstr
  rw [String.toList_append]
  split
  · rename_i hnull
    -- The null character stops the reading within `a`.
    rw [List.takeWhile_append]
    rw [if_neg]
    intro hall
    have hwhole : a.toList.takeWhile (· != '\x00') = a.toList :=
      (List.takeWhile_prefix _).eq_of_length hall
    rw [← hwhole] at hnull
    exact absurd (List.mem_takeWhile_imp hnull) (by simp)
  · rename_i hnull
    -- Nothing stops it in `a`, so it goes on in `b`.
    have hwhole : a.toList.takeWhile (· != '\x00') = a.toList := by
      rw [List.takeWhile_eq_self_iff]
      intro c hc
      rw [bne_iff_ne]
      intro heq
      exact hnull (heq ▸ hc)
    rw [List.takeWhile_append, hwhole, if_pos rfl, String.ofList_append, String.ofList_toList]

/-! ### Positions -/

theorem find_eq_none {s : String} {c : Char} : find s c 0 = none ↔ c ∉ s.toList := by
  unfold find
  rw [Option.map_eq_none_iff, List.drop_zero, List.findIdx?_eq_none_iff]
  constructor
  · intro h hmem
    simpa using h c hmem
  · intro h x hx
    have hne : x ≠ c := fun heq => h (heq ▸ hx)
    simpa using hne

theorem rfind_eq_none {s : String} {c : Char} : rfind s c = none ↔ c ∉ s.toList := by
  unfold rfind
  rw [Option.map_eq_none_iff, List.findIdx?_eq_none_iff]
  constructor
  · intro h hmem
    simpa using h c (List.mem_reverse.mpr hmem)
  · intro h x hx
    have hne : x ≠ c := fun heq => h (heq ▸ List.mem_reverse.mp hx)
    simpa using hne

/-- The index of the first `c` of a list split there. -/
theorem findIdx?_of_split {c : Char} {pre post : List Char} (hpre : c ∉ pre) :
    (pre ++ c :: post).findIdx? (· == c) = some pre.length := by
  have hnone : pre.findIdx? (· == c) = none := by
    rw [List.findIdx?_eq_none_iff]
    intro x hx
    have hne : x ≠ c := fun heq => hpre (heq ▸ hx)
    simpa using hne
  rw [List.findIdx?_append, hnone, List.findIdx?_cons]
  simp

/-- The position of the first `c`. -/
theorem find_of_split {s : String} {c : Char} {pre post : List Char}
    (h : s.toList = pre ++ c :: post) (hpre : c ∉ pre) : find s c 0 = some pre.length := by
  unfold find
  rw [List.drop_zero, h, findIdx?_of_split hpre]
  rfl

/-- The position of the first `c` from a position on. -/
theorem find_of_drop {s : String} {c : Char} {start : Nat} {pre post : List Char}
    (h : s.toList.drop start = pre ++ c :: post) (hpre : c ∉ pre) :
    find s c start = some (start + pre.length) := by
  unfold find
  rw [h, findIdx?_of_split hpre, Option.map_some, Nat.add_comm]

/-- The position of the last `c`. -/
theorem rfind_of_split {s : String} {c : Char} {pre post : List Char}
    (h : s.toList = pre ++ c :: post) (hpost : c ∉ post) : rfind s c = some pre.length := by
  have hlen : s.length = pre.length + 1 + post.length := by
    rw [← String.length_toList, h, List.length_append, List.length_cons]
    omega
  have hrev : s.toList.reverse = post.reverse ++ c :: pre.reverse := by
    rw [h]
    simp
  unfold rfind
  rw [hrev, findIdx?_of_split (fun hmem => hpost (List.mem_reverse.mp hmem)), Option.map_some,
    List.length_reverse, hlen]
  congr 1
  omega

/-- A text that has a `c` splits at its last one. -/
theorem exists_last_split {cs : List Char} {c : Char} (h : c ∈ cs) :
    ∃ pre post, cs = pre ++ c :: post ∧ c ∉ post := by
  obtain ⟨pre, post, heq, hnot⟩ := List.eq_append_cons_of_mem (List.mem_reverse.mpr h)
  refine ⟨post.reverse, pre.reverse, ?_, by simpa using hnot⟩
  rw [← List.reverse_reverse cs, heq]
  simp

example : tokens " 0: 0100007F:0050  0A\n" = ["0:", "0100007F:0050", "0A"] := by decide
example : basename "/usr/sbin/sshd" = "sshd" := by decide

end WatchedAgent.Lib.Text
