import Mathlib.Data.List.Basic

/-!
# `WatchedAgent.Lib.IStream`: input file streams

The part of `std::ifstream` (C++11) a line reader uses: a read position and the `eofbit`
and `failbit` flags. Each unformatted input function first builds a sentry, which sets
`failbit` on a stream that is not `good`.

* `getline` reads up to the next newline. Meeting the end of the file sets `eofbit`, and
  `failbit` too when nothing was extracted.
* `tellg` is `-1` on a stream that is not good.
* `seekg` clears `eofbit`, and a negative position sets `failbit`.
* `readLines` is the loop `while(getline(in, line))`. `readLines_failbit` shows that it
  runs to the failing `getline`, and `readLines_wholeLines` gives its result on a file of
  newline-terminated lines.
-/

set_option autoImplicit false

namespace WatchedAgent.Lib

/-- A line of text: characters without a newline. -/
abbrev Line : Type := {cs : List Char // '\n' ∉ cs}

/-- The lines as the characters of a file, each ended by a newline. -/
def fileText (ls : List Line) : List Char := ls.flatMap (fun l => l.val ++ ['\n'])

@[simp]
theorem fileText_nil : fileText [] = [] := rfl

@[simp]
theorem fileText_cons (l : Line) (ls : List Line) :
    fileText (l :: ls) = l.val ++ '\n' :: fileText ls := by
  simp [fileText]

/-- A file has at least one character for each of its lines. -/
theorem length_le_length_fileText (ls : List Line) : ls.length ≤ (fileText ls).length := by
  induction ls with
  | nil => simp
  | cons l ls ih =>
      simp only [fileText_cons, List.length_append, List.length_cons]
      omega

/-- Only the file without lines is empty. -/
theorem fileText_eq_nil {ls : List Line} : fileText ls = [] ↔ ls = [] := by
  cases ls with
  | nil => simp
  | cons l ls => simp

/-- An input stream over the characters of a file. -/
structure IStream where
  content : List Char
  pos : Nat
  eofbit : Bool := false
  failbit : Bool := false
  deriving DecidableEq

namespace IStream

/-- A stream opened with `std::ios::ate`: the position is the end of the file. -/
def openAte (content : List Char) : IStream := { content, pos := content.length }

/-- `good()`: neither flag is set. -/
def good (s : IStream) : Bool := !s.eofbit && !s.failbit

/-- `tellg()`. -/
def tellg (s : IStream) : Int := if s.good then s.pos else -1

/-- `seekg(p)`. -/
def seekg (s : IStream) (p : Int) : IStream :=
  let s := { s with eofbit := false }
  if s.failbit then s
  -- A failed read of the position is `-1`, and to seek there fails too.
  else if p < 0 then { s with failbit := true }
  else { s with pos := p.toNat }

/-- `getline(in, line)`: the stream afterwards, and the line. -/
def getline (s : IStream) : IStream × List Char :=
  if s.good then
    let rest := s.content.drop s.pos
    let line := rest.takeWhile (· != '\n')
    -- A newline was found: it is extracted too, and no flag is set.
    if line.length < rest.length then
      ({ s with pos := s.pos + line.length + 1 }, line)
    else
      ({ s with pos := s.pos + line.length, eofbit := true, failbit := rest.isEmpty }, line)
  else ({ s with failbit := true }, [])

/-- At most `n` turns of `while(getline(in, line))`: the lines read, and the stream. -/
def getlines : Nat → IStream → List (List Char) × IStream
  | 0, s => ([], s)
  | n + 1, s =>
      let r := s.getline
      if r.1.failbit then ([], r.1)
      else
        let more := getlines n r.1
        (r.2 :: more.1, more.2)

/-- The loop `while(getline(in, line))`. Every turn but the last extracts a character. -/
def readLines (s : IStream) : List (List Char) × IStream :=
  getlines ((s.content.drop s.pos).length + 1) s

/-- A successful `getline` leaves the content alone and moves the position forward. -/
theorem getline_of_not_failbit (s : IStream) (h : s.getline.1.failbit = false) :
    s.getline.1.content = s.content ∧ s.pos < s.getline.1.pos ∧
      s.pos < s.content.length := by
  unfold getline at h ⊢
  split at h
  · rename_i hgood
    rw [if_pos hgood]
    dsimp only at h ⊢
    split
    · -- A newline stops the read before the end of the file.
      rename_i hlt
      refine ⟨rfl, by simp only; omega, ?_⟩
      rw [List.length_drop] at hlt
      omega
    · -- The read meets the end: it does not fail, so it extracted something.
      rename_i hge
      rw [if_neg hge] at h
      have hrest : s.content.drop s.pos ≠ [] := by simpa using h
      have hpos : s.pos < s.content.length := by
        by_contra hn
        exact hrest (List.drop_eq_nil_of_le (Nat.le_of_not_lt hn))
      refine ⟨rfl, ?_, hpos⟩
      have hlen : 0 < (s.content.drop s.pos).length := List.length_pos_of_ne_nil hrest
      simp only
      omega
  · simp at h

/-- The loop ends in a failing `getline`. -/
theorem readLines_failbit (s : IStream) : s.readLines.2.failbit = true := by
  have key : ∀ (n : Nat) (s : IStream), (s.content.drop s.pos).length < n →
      (getlines n s).2.failbit = true := by
    -- Each good `getline` moves on, so more turns than characters remain suffice.
    intro n
    induction n with
    | zero => intro s h; omega
    | succ n ih =>
        intro s h
        cases hf : s.getline.1.failbit with
        | true => simp [getlines, hf]
        | false =>
            obtain ⟨hcontent, hpos, hlt⟩ := getline_of_not_failbit s hf
            simp only [getlines, hf, Bool.false_eq_true, if_false]
            apply ih
            rw [hcontent, List.length_drop]
            rw [List.length_drop] at h
            omega
  exact key _ s (Nat.lt_succ_self _)

/-- `getline` reads the line at the position, which a newline ends. -/
theorem getline_of_drop {s : IStream} (hgood : s.good = true) {line rest : List Char}
    (h : s.content.drop s.pos = line ++ '\n' :: rest) (hline : '\n' ∉ line) :
    s.getline = ({ s with pos := s.pos + line.length + 1 }, line) := by
  have hl : ∀ c ∈ line, (c != '\n') = true := by
    intro c hc
    have hne : c ≠ '\n' := fun heq => hline (heq ▸ hc)
    simpa using hne
  have htake : (line ++ '\n' :: rest).takeWhile (· != '\n') = line := by
    rw [List.takeWhile_append_of_pos hl]
    simp
  unfold getline
  rw [if_pos hgood, h]
  dsimp only
  rw [htake, if_pos (by simp)]

/-- `getline` at the start of a line reads that line. -/
theorem getline_of_line (before after : List Char) (l : Line) :
    getline ⟨before ++ (l.val ++ '\n' :: after), before.length, false, false⟩
      = (⟨before ++ (l.val ++ '\n' :: after), before.length + l.val.length + 1, false, false⟩,
          l.val) := by
  have hl : ∀ c ∈ l.val, (c != '\n') = true := by
    intro c hc
    have hne : c ≠ '\n' := fun heq => l.property (heq ▸ hc)
    simpa using hne
  have htake : (l.val ++ '\n' :: after).takeWhile (· != '\n') = l.val := by
    rw [List.takeWhile_append_of_pos hl]
    simp
  simp [getline, good, htake]

/-- From the start of a line to the end of a file of whole lines, the loop reads exactly
the lines that remain, and ends at the end of the file with both flags set. -/
theorem readLines_wholeLines (before : List Char) (ls : List Line) :
    readLines ⟨before ++ fileText ls, before.length, false, false⟩
      = (ls.map Subtype.val,
          ⟨before ++ fileText ls, (before ++ fileText ls).length, true, true⟩) := by
  have key : ∀ (ls : List Line) (before : List Char) (n : Nat), ls.length < n →
      getlines n ⟨before ++ fileText ls, before.length, false, false⟩
        = (ls.map Subtype.val,
            ⟨before ++ fileText ls, (before ++ fileText ls).length, true, true⟩) := by
    intro ls
    induction ls with
    | nil =>
        intro before n hn
        cases n with
        | zero => omega
        | succ n => simp [getlines, getline, good]
    | cons l ls ih =>
        intro before n hn
        cases n with
        | zero => omega
        | succ n =>
            -- One turn reads `l`, and the rest runs from the start of the next line.
            have hstep := getline_of_line before (fileText ls) l
            have hrec := ih (before ++ (l.val ++ ['\n'])) n (by simpa using hn)
            simp only [List.append_assoc, List.singleton_append, List.length_append,
              List.length_cons, List.length_nil] at hrec
            simp only [fileText_cons, getlines, hstep, Bool.false_eq_true, if_false]
            rw [show before.length + l.val.length + 1 = before.length + (l.val.length + (0 + 1))
              by omega, hrec]
            simp
  apply key
  have hle := length_le_length_fileText ls
  simp only [List.drop_left]
  omega

end IStream

end WatchedAgent.Lib
