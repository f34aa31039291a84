import WatchedAgent.Lib.Numeral

/-!
# `WatchedAgent.Lib.Percent`: percent-encoding

A byte string as a text of unreserved characters, with the other bytes as `%` and two upper
case hexadecimal digits. `encode` has the choice which bytes stay as they are.

* `decode_encode`: decoding gives the bytes back, where `%` itself is encoded.
* `wellFormed_encode`: the text is of that form, where only unreserved characters stay.
* `unreserved_or_of_wellFormed`: what characters such a text has.
-/

set_option autoImplicit false

namespace WatchedAgent.Lib.Percent

open WatchedAgent.Lib.Text

/-- The unreserved characters. -/
def isUnreserved (c : Char) : Bool :=
  ('A' ≤ c && c ≤ 'Z') || ('a' ≤ c && c ≤ 'z') || isDigit c || c == '-' || c == '.' || c == '_'
    || c == '~'

/-- The hexadecimal digits, with upper case letters. -/
def isUpperHex (c : Char) : Bool := isDigit c || ('A' ≤ c && c ≤ 'F')

/-- A text of unreserved characters and triples. -/
def wellFormed : List Char → Bool
  | [] => true
  | c :: cs =>
      if c = '%' then
        match cs with
        | a :: b :: cs => isUpperHex a && isUpperHex b && wellFormed cs
        | _ => false
      else isUnreserved c && wellFormed cs

/-- Percent-decoding. A character that is no byte, and a `%` without two digits after it, is an
error. -/
def decode : List Char → Option (List UInt8)
  | [] => some []
  | c :: cs =>
      if c = '%' then
        match cs with
        | a :: b :: cs => do
            let hi ← digit? 16 a
            let lo ← digit? 16 b
            let bs ← decode cs
            return UInt8.ofNat (hi * 16 + lo) :: bs
        | _ => none
      else if c.toNat < 256 then (decode cs).map (UInt8.ofNat c.toNat :: ·)
      else none

/-- The character of a byte. -/
def charOf (b : UInt8) : Char := Char.ofUInt8 b

/-- A byte that stays, or its triple. -/
def encodeByte (keep : UInt8 → Bool) (b : UInt8) : List Char :=
  if keep b then [charOf b] else '%' :: hexPair b

/-- Percent-encoding. -/
def encode (keep : UInt8 → Bool) (bs : List UInt8) : List Char := bs.flatMap (encodeByte keep)

/-! ### Bytes -/

theorem toNat_charOf (b : UInt8) : (charOf b).toNat = b.toNat := by
  show b.toUInt32.toNat = b.toNat
  exact UInt8.toNat_toUInt32 b

theorem isUpperHex_upperDigit : ∀ d < 16, isUpperHex (upperDigit d) = true := by decide

theorem charOf_ne_percent {b : UInt8} (h : b ≠ 0x25) : charOf b ≠ '%' := by
  intro heq
  have hnat : b.toNat = 0x25 := by rw [← toNat_charOf, heq]; rfl
  exact h (UInt8.toNat_inj.mp hnat)

/-! ### Decoding -/

theorem decode_cons_of_ne {c : Char} (hne : c ≠ '%') (hlt : c.toNat < 256) (cs : List Char) :
    decode (c :: cs) = (decode cs).map (UInt8.ofNat c.toNat :: ·) := by
  conv_lhs => unfold decode
  rw [if_neg hne, if_pos hlt]

theorem decode_hexPair (b : UInt8) (cs : List Char) :
    decode ('%' :: hexPair b ++ cs) = (decode cs).map (b :: ·) := by
  have hlt : b.toNat < 256 := b.toNat_lt
  have hhigh : digit? 16 (upperDigit (b.toNat / 16)) = some (b.toNat / 16) :=
    digit?_upperDigit (by omega)
  have hlow : digit? 16 (upperDigit (b.toNat % 16)) = some (b.toNat % 16) :=
    digit?_upperDigit (by omega)
  have hbyte : UInt8.ofNat (b.toNat / 16 * 16 + b.toNat % 16) = b := by
    rw [Nat.div_add_mod', UInt8.ofNat_toNat]
  show decode ('%' :: upperDigit (b.toNat / 16) :: upperDigit (b.toNat % 16) :: cs) = _
  conv_lhs => unfold decode
  rw [if_pos rfl]
  dsimp only
  rw [hhigh, hlow]
  simp only [Option.bind_eq_bind, Option.bind_some, hbyte]
  cases decode cs <;> rfl

section
variable {keep : UInt8 → Bool}

/-- One byte is read back, whatever follows it. -/
theorem decode_encodeByte (hkeep : keep 0x25 = false) (b : UInt8) (cs : List Char) :
    decode (encodeByte keep b ++ cs) = (decode cs).map (b :: ·) := by
  unfold encodeByte
  split
  · rename_i hb
    have hne : charOf b ≠ '%' := charOf_ne_percent fun heq => by
      rw [heq, hkeep] at hb
      exact absurd hb (by decide)
    have hlt : (charOf b).toNat < 256 := by
      rw [toNat_charOf]
      exact b.toNat_lt
    rw [List.singleton_append, decode_cons_of_ne hne hlt, toNat_charOf, UInt8.ofNat_toNat]
  · exact decode_hexPair b cs

/-- Decoding gives the bytes back. -/
theorem decode_encode (hkeep : keep 0x25 = false) (bs : List UInt8) :
    decode (encode keep bs) = some bs := by
  unfold encode
  induction bs with
  | nil => rfl
  | cons b bs ih => rw [List.flatMap_cons, decode_encodeByte hkeep, ih, Option.map_some]

/-- Two byte strings with the same text are the same. -/
theorem encode_injective (hkeep : keep 0x25 = false) : Function.Injective (encode keep) := by
  intro a b h
  have hdecode := decode_encode hkeep a
  rw [h, decode_encode hkeep b] at hdecode
  exact (Option.some.inj hdecode).symm

/-! ### The form of the text -/

theorem isUnreserved_ne_percent {c : Char} (h : isUnreserved c = true) : c ≠ '%' := by
  rintro rfl
  exact absurd h (by decide)

theorem wellFormed_cons_of_ne {c : Char} (hne : c ≠ '%') (cs : List Char) :
    wellFormed (c :: cs) = (isUnreserved c && wellFormed cs) := by
  conv_lhs => unfold wellFormed
  rw [if_neg hne]

theorem wellFormed_triple (a b : Char) (cs : List Char) :
    wellFormed ('%' :: a :: b :: cs) = (isUpperHex a && isUpperHex b && wellFormed cs) := by
  conv_lhs => unfold wellFormed
  rw [if_pos rfl]

theorem wellFormed_encodeByte (hkeep : ∀ b, keep b = true → isUnreserved (charOf b) = true)
    (b : UInt8) {cs : List Char} (hcs : wellFormed cs = true) :
    wellFormed (encodeByte keep b ++ cs) = true := by
  unfold encodeByte
  split
  · rename_i hb
    have hun := hkeep b hb
    rw [List.singleton_append, wellFormed_cons_of_ne (isUnreserved_ne_percent hun), hun, hcs]
    rfl
  · have hlt : b.toNat < 256 := b.toNat_lt
    show wellFormed ('%' :: upperDigit (b.toNat / 16) :: upperDigit (b.toNat % 16) :: cs) = true
    rw [wellFormed_triple, isUpperHex_upperDigit _ (by omega), isUpperHex_upperDigit _ (by omega),
      hcs]
    rfl

theorem wellFormed_encode (hkeep : ∀ b, keep b = true → isUnreserved (charOf b) = true)
    (bs : List UInt8) : wellFormed (encode keep bs) = true := by
  unfold encode
  induction bs with
  | nil => rfl
  | cons b bs ih =>
      rw [List.flatMap_cons]
      exact wellFormed_encodeByte hkeep b ih

/-- The characters of such a text: a digit of a triple is unreserved too. -/
theorem unreserved_or_of_wellFormed {cs : List Char} (h : wellFormed cs = true) :
    ∀ c ∈ cs, isUnreserved c = true ∨ c = '%' := by
  have hdigit : ∀ c, isUpperHex c = true → isUnreserved c = true := by
    intro c hc
    unfold isUpperHex at hc
    unfold isUnreserved
    rcases Bool.or_eq_true_iff.mp hc with hdig | hletter
    · simp [hdig]
    · simp only [Bool.and_eq_true, decide_eq_true_eq] at hletter
      have hle : c ≤ 'Z' := Char.le_trans hletter.2 (show 'F' ≤ 'Z' by decide)
      simp [hletter.1, hle]
  induction cs using wellFormed.induct with
  | case1 => simp
  | case2 a b cs ih =>
      rw [wellFormed_triple] at h
      simp only [Bool.and_eq_true] at h
      obtain ⟨⟨ha, hb⟩, hcs⟩ := h
      intro c hc
      simp only [List.mem_cons] at hc
      rcases hc with rfl | rfl | rfl | hc
      · exact .inr rfl
      · exact .inl (hdigit c ha)
      · exact .inl (hdigit c hb)
      · exact ih hcs c hc
  | case3 cs hcs =>
      unfold wellFormed at h
      rw [if_pos rfl] at h
      exact absurd h (by split <;> simp_all)
  | case4 c cs hne ih =>
      rw [wellFormed_cons_of_ne hne, Bool.and_eq_true] at h
      intro d hd
      rcases List.mem_cons.mp hd with rfl | hd
      · exact .inl h.1
      · exact ih h.2 d hd

end

end WatchedAgent.Lib.Percent
