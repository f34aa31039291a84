import Mathlib.Data.List.Chain
import Mathlib.Algebra.Order.BigOperators.Group.List
import Mathlib.Tactic.Linarith
import WatchedAgent.Model.SystemCollectors
import WatchedAgent.Proofs.CpuFiles

/-!
# `WatchedAgent.Proofs.CpuPercentages`: the shares of a processor

`cpuTicks::setRaw` reads the counters of a line of `/proc/stat` modulo `2 ^ 32`, and takes an
`iowait` above ten millions for bogus. The counter never goes back, so from some uptime on every
value is above.

* `percentages_exact_iff`: the shares are exact as long as the clamp does not show.
* `not_exact_crossing`: the reading at which `iowait` crosses ten millions.
-/

set_option autoImplicit false

namespace WatchedAgent.Proofs.CpuPercentages

open WatchedAgent.Lib
open WatchedAgent.Lib.Text
open WatchedAgent.Model
open WatchedAgent.Model.CpuTicks
open WatchedAgent.Proofs.CpuFiles (row words_row)

/-! ### The lines -/

/-- The word of a counter. -/
def word (raw : List String) (id : String) : Nat :=
  ServCpuCollector.wordValue raw ((counters.lookup id).getD 0)

/-- Every counter is set from its word, and `iowait` is clamped. -/
theorem readLive_word (raw : List String) (live : String → Nat) : ∀ id ∈ CpuTicks.ids,
    readLive raw live id = if id = "iowait" ∧ 10000000 < word raw "iowait" then 0 else word raw id := by
  have hlive : ∀ id ∈ CpuTicks.ids, counters.foldl (fun live f => Function.update live f.1
      (ServCpuCollector.wordValue raw f.2)) live id = word raw id := by
    simp only [CpuTicks.ids, List.forall_mem_cons]
    exact ⟨rfl, rfl, rfl, rfl, rfl, rfl, rfl, fun _ h => absurd h List.not_mem_nil⟩
  intro id hid
  unfold readLive
  rw [hlive "iowait" (by decide)]
  by_cases hhigh : 10000000 < word raw "iowait"
  · rw [if_pos hhigh]
    by_cases hio : id = "iowait"
    · rw [hio, Function.update_self, if_pos ⟨rfl, hhigh⟩]
    · rw [Function.update_of_ne hio, if_neg fun h => hio h.1, hlive id hid]
  · rw [if_neg hhigh, if_neg fun h => hhigh h.2, hlive id hid]

/-- A line of `/proc/stat`: its first word, the counters by their names, and the rest of the
numbers. -/
structure CpuLine where
  name : String
  counts : String → Nat
  more : List Nat
  name_word : (tokens name).length = 1

namespace CpuLine
variable (l : CpuLine)

/-- The text of the line. -/
def text : String := l.name ++ row (counters.map (fun f => l.counts f.1) ++ l.more)

theorem wordValue_text {f : String × Nat} (hf : f ∈ counters) :
    ServCpuCollector.wordValue (tokens l.text) f.2 = l.counts f.1 % 0x100000000 := by
  obtain ⟨w, hw⟩ := List.length_eq_one_iff.mp l.name_word
  have hwords : tokens l.text
      = w :: (counters.map (fun f => l.counts f.1) ++ l.more).map toString := by
    unfold text row
    rw [tokens_fields String.toList_append (words_row _), hw, List.singleton_append]
  have hplace : ∀ f ∈ counters, (tokens l.text)[f.2]? = some (toString (l.counts f.1)) := by
    rw [hwords]
    simp [counters]
  unfold ServCpuCollector.wordValue
  rw [hplace f hf, Option.getD_some, atoi_nat]
  rfl

/-- The value of a counter as the collector takes it. -/
def taken (id : String) : Nat :=
  if id = "iowait" ∧ 10000000 < l.counts "iowait" % 0x100000000 then 0
  else l.counts id % 0x100000000

theorem word_text : ∀ id ∈ CpuTicks.ids, word (tokens l.text) id = l.counts id % 0x100000000 := by
  have hwords := fun f hf => l.wordValue_text (f := f) hf
  simp only [counters, List.forall_mem_cons] at hwords
  obtain ⟨huser, hnice, hsystem, hidle, hiowait, hirq, hsoftirq, -⟩ := hwords
  simp only [CpuTicks.ids, List.forall_mem_cons]
  exact ⟨hidle, hiowait, hirq, hnice, hsoftirq, hsystem, huser, fun _ h => absurd h List.not_mem_nil⟩

theorem readLive_text (live : String → Nat) :
    ∀ id ∈ CpuTicks.ids, readLive (tokens l.text) live id = l.taken id := by
  intro id hid
  rw [readLive_word _ live id hid, l.word_text id hid, l.word_text "iowait" (by decide)]
  rfl

end CpuLine

/-! ### A reading -/

/-- The first loop. -/
theorem foldl_turn {keys : List String} (hkeys : keys.Nodup) (r : CpuTicks) {sum : Nat}
    (hsum : sum < 0x100000000) : keys.foldl turn (r, sum)
      = ({ r with
            diff := fun id => if id ∈ keys then subUInt32 (r.live id) (r.old id) else r.diff id
            old := fun id => if id ∈ keys then r.live id else r.old id },
          (sum + (keys.map (fun id => subUInt32 (r.live id) (r.old id))).sum) % 0x100000000) := by
  induction keys generalizing r sum with
  | nil => simp [Nat.mod_eq_of_lt hsum]
  | cons key keys ih =>
      obtain ⟨hkey, hkeys⟩ := List.nodup_cons.mp hkeys
      let d (id : String) : Nat := subUInt32 (r.live id) (r.old id)
      have hadd : addUInt32 sum (d key) < 0x100000000 := Nat.mod_lt _ (by decide)
      -- The entries of the other keys do not change before their turn.
      have hold : ∀ id ∈ keys, Function.update r.old key (r.live key) id = r.old id :=
        fun id hid => Function.update_of_ne (ne_of_mem_of_not_mem hid hkey) _ _
      have hlater : keys.map (fun id => subUInt32 (r.live id)
          (Function.update r.old key (r.live key) id)) = keys.map d :=
        List.map_congr_left fun id hid => by rw [hold id hid]
      have hdiff : (fun id => if id ∈ keys then
            subUInt32 (r.live id) (Function.update r.old key (r.live key) id)
          else Function.update r.diff key (d key) id)
          = fun id => if id ∈ key :: keys then d id else r.diff id := by
        funext id
        by_cases hid : id = key
        · subst hid
          rw [if_neg hkey, Function.update_self, if_pos List.mem_cons_self]
        · simp [hid, d]
      have hupdate : (fun id => if id ∈ keys then r.live id
          else Function.update r.old key (r.live key) id)
          = fun id => if id ∈ key :: keys then r.live id else r.old id := by
        funext id
        by_cases hid : id = key
        · subst hid
          rw [if_neg hkey, Function.update_self, if_pos List.mem_cons_self]
        · simp [hid]
      have hadds : (addUInt32 sum (d key) + (keys.map d).sum) % 0x100000000
          = (sum + ((key :: keys).map d).sum) % 0x100000000 := by
        rw [List.map_cons, List.sum_cons]
        unfold addUInt32
        omega
      rw [List.foldl_cons]
      show keys.foldl turn ({ r with
        diff := Function.update r.diff key (d key)
        old := Function.update r.old key (r.live key) }, addUInt32 sum (d key)) = _
      rw [ih hkeys _ hadd]
      dsimp only
      rw [hdiff, hupdate, hlater, hadds]

/-- The properties that are published. -/
def shown : List String := CpuTicks.ids.filter (· != "idle")

/-- The difference of a counter between two lines, as the collector takes it. -/
def difference (prev cur : CpuLine) (id : String) : Nat := subUInt32 (cur.taken id) (prev.taken id)

/-- The sum of the differences. -/
def sumTaken (prev cur : CpuLine) : Nat := (CpuTicks.ids.map (difference prev cur)).sum % 0x100000000

/-- The collector holds the counters of a line. -/
def Holds (r : CpuTicks) (l : CpuLine) : Prop := ∀ id ∈ CpuTicks.ids, r.old id = l.taken id

theorem setRaw_words (r : CpuTicks) (raw : List String) :
    CpuTicks.ids.foldl turn ({ r with live := readLive raw r.live }, 0)
      = ({ live := readLive raw r.live
           diff := fun id => if id ∈ CpuTicks.ids then subUInt32 (readLive raw r.live id) (r.old id)
             else r.diff id
           old := fun id => if id ∈ CpuTicks.ids then readLive raw r.live id else r.old id },
          (CpuTicks.ids.map (fun id => subUInt32 (readLive raw r.live id) (r.old id))).sum % 0x100000000) := by
  rw [foldl_turn (by decide) _ (by decide), Nat.zero_add]

theorem holds_setRaw (r : CpuTicks) (cur : CpuLine) : Holds (r.setRaw (tokens cur.text)).1 cur := by
  intro id hid
  unfold setRaw
  rw [setRaw_words]
  dsimp only
  rw [if_pos hid, cur.readLive_text r.live id hid]

theorem published_setRaw {r : CpuTicks} {prev : CpuLine} (h : Holds r prev) (cur : CpuLine) :
    (r.setRaw (tokens cur.text)).2 = shown.map (fun id =>
      (id, quotient (difference prev cur id * 100) (sumTaken prev cur))) := by
  have hdiff : ∀ id ∈ CpuTicks.ids, subUInt32 (readLive (tokens cur.text) r.live id) (r.old id)
      = difference prev cur id :=
    fun id hid => by rw [cur.readLive_text r.live id hid, h id hid, difference]
  unfold setRaw
  rw [setRaw_words]
  dsimp only
  rw [List.map_congr_left hdiff]
  refine List.map_congr_left fun id hid => ?_
  have hid' : id ∈ CpuTicks.ids := List.mem_of_mem_filter hid
  rw [if_pos hid', hdiff id hid']
  rfl

/-! ### The shares -/

/-- What a counter has grown. -/
def increase (prev cur : CpuLine) (id : String) : Nat := cur.counts id - prev.counts id

/-- What all counters have grown. -/
def total (prev cur : CpuLine) : Nat := (CpuTicks.ids.map (increase prev cur)).sum

/-- The counters go forward, altogether by less than `2 ^ 32`. -/
structure Advances (prev cur : CpuLine) : Prop where
  forward : ∀ id ∈ CpuTicks.ids, prev.counts id ≤ cur.counts id
  pos : 0 < total prev cur
  lt : total prev cur < 0x100000000

/-- The published values are the shares of the counters in percent, and nothing else. -/
structure Exact (prev cur : CpuLine) (p : Published) : Prop where
  shares : ∀ id ∈ shown, p.lookup id = some (some (100 * (increase prev cur id : ℚ) / total prev cur))
  percentages : ∀ e ∈ p, ∃ q, e.2 = some q ∧ 0 ≤ q ∧ q ≤ 100
  sum_le : (p.filterMap Prod.snd).sum ≤ 100

/-- Between the two lines the clamp does not show: `iowait` was not above ten millions, or has
not moved, or it alone has moved and it was not clamped to a zero that stands for itself. -/
def Unclamped (prev cur : CpuLine) : Prop :=
  let w := prev.counts "iowait" % 0x100000000
  let w' := cur.counts "iowait" % 0x100000000
  (w ≤ 10000000 ∧ w' ≤ 10000000) ∨ cur.counts "iowait" = prev.counts "iowait" ∨
    (∀ id ∈ CpuTicks.ids, id ≠ "iowait" → cur.counts id = prev.counts id) ∧
      (0 < w ∧ w ≤ 10000000 ∨ 0 < w' ∧ w' ≤ 10000000)

/-- Two quotients are equal if their cross products are. -/
theorem quotient_eq_iff {a b c e : Nat} (he : e ≠ 0) :
    quotient (a * 100) b = some (100 * (c : ℚ) / e) ↔ b ≠ 0 ∧ a * e = c * b := by
  have he' : (e : ℚ) ≠ 0 := Nat.cast_ne_zero.mpr he
  unfold quotient
  by_cases hb : b = 0
  · simp [hb]
  · have hb' : (b : ℚ) ≠ 0 := Nat.cast_ne_zero.mpr hb
    have hcast : (a : ℚ) * 100 * e = 100 * c * b ↔ ((a * e : Nat) : ℚ) = ((c * b : Nat) : ℚ) := by
      push_cast
      constructor <;> intro h <;> linarith
    rw [if_neg hb', Option.some_inj, div_eq_div_iff hb' he', hcast, Nat.cast_inj]
    exact (and_iff_right hb).symm

/-- A share is exact if its difference is, or if there is nothing else that has grown. -/
theorem quotient_eq_share_iff {rest inc d : Nat} (hpos : 0 < rest + inc)
    (hlt : rest + inc < 0x100000000) (hd : d < 0x100000000) :
    quotient (d * 100) ((rest + d) % 0x100000000 : Nat) = some (100 * (inc : ℚ) / (rest + inc : Nat))
      ↔ d = inc ∨ rest = 0 ∧ d ≠ 0 := by
  rw [quotient_eq_iff (by omega)]
  constructor
  · rintro ⟨hsum, hcross⟩
    by_cases hsmall : rest + d < 0x100000000
    · rw [Nat.mod_eq_of_lt hsmall] at hsum hcross
      have hrest : rest * d = rest * inc := by
        rw [Nat.mul_add, Nat.mul_add, Nat.mul_comm d inc, Nat.mul_comm d rest,
          Nat.mul_comm inc rest] at hcross
        exact Nat.add_right_cancel hcross
      rcases Nat.eq_zero_or_pos rest with hzero | hpos
      · exact .inr ⟨hzero, by omega⟩
      · exact .inl (Nat.eq_of_mul_eq_mul_left hpos hrest)
    · -- A sum that wraps is too small for the difference.
      exfalso
      obtain ⟨s, hs⟩ : ∃ s, rest + d = s + 0x100000000 := ⟨rest + d - 0x100000000, by omega⟩
      have hmod : (rest + d) % 0x100000000 = s := by omega
      rw [hmod] at hcross
      have hgap : d * rest + inc * 0x100000000 = inc * rest := by
        have hexpand := congrArg (inc * ·) hs
        rw [Nat.mul_add, Nat.mul_add] at hexpand
        rw [Nat.mul_add, Nat.mul_comm d inc] at hcross
        omega
      rcases Nat.eq_zero_or_pos inc with hzero | hinc
      · subst hzero
        rw [Nat.zero_mul, Nat.zero_mul, Nat.add_zero] at hgap
        rcases Nat.mul_eq_zero.mp hgap with h | h <;> omega
      · have hlt' : inc * rest < inc * 0x100000000 := Nat.mul_lt_mul_of_pos_left (by omega) hinc
        omega
  · rintro (rfl | ⟨rfl, hne⟩)
    · rw [Nat.mod_eq_of_lt hlt]
      exact ⟨by omega, rfl⟩
    · rw [Nat.zero_add, Nat.mod_eq_of_lt hd, Nat.zero_add]
      exact ⟨hne, Nat.mul_comm d inc⟩

/-- Where the clamp shows, in numbers: the difference is wrong, or it is a part of the whole
all the same. -/
theorem difference_iff {a b : Nat} (hle : a ≤ b) (hlt : b < a + 0x100000000) (alone : Prop) :
    let taken (n : Nat) : Nat := if 10000000 < n % 0x100000000 then 0 else n % 0x100000000
    (subUInt32 (taken b) (taken a) = b - a ∨ alone ∧ subUInt32 (taken b) (taken a) ≠ 0) ↔
      (a % 0x100000000 ≤ 10000000 ∧ b % 0x100000000 ≤ 10000000) ∨ b = a ∨
        alone ∧ (0 < a % 0x100000000 ∧ a % 0x100000000 ≤ 10000000 ∨
          0 < b % 0x100000000 ∧ b % 0x100000000 ≤ 10000000) := by
  intro taken
  unfold taken subUInt32
  by_cases halone : alone
  · simp only [halone, true_and]
    split <;> split <;> omega
  · simp only [halone, false_and, or_false]
    split <;> split <;> omega

section Step
variable {prev cur : CpuLine}

/-- What the counters other than `iowait` have grown. -/
def others (prev cur : CpuLine) : Nat :=
  ((CpuTicks.ids.filter (· != "iowait")).map (increase prev cur)).sum

/-- A sum over all counters, with the part of `iowait` apart. -/
theorem sum_ids (f : String → Nat) :
    (CpuTicks.ids.map f).sum = ((CpuTicks.ids.filter (· != "iowait")).map f).sum + f "iowait" := by
  have hfilter : CpuTicks.ids.filter (· != "iowait")
      = ["idle", "irq", "nice", "softirq", "system", "user"] := by decide
  rw [hfilter]
  simp only [CpuTicks.ids, List.map_cons, List.map_nil, List.sum_cons, List.sum_nil]
  omega

theorem others_eq_zero_iff (h : Advances prev cur) : others prev cur = 0 ↔
    ∀ id ∈ CpuTicks.ids, id ≠ "iowait" → cur.counts id = prev.counts id := by
  unfold others increase
  rw [List.sum_eq_zero_iff]
  simp only [List.forall_mem_map, List.mem_filter, bne_iff_ne, and_imp]
  refine forall_congr' fun id => imp_congr_right fun hid => imp_congr_right fun _ => ?_
  have hle := h.forward id hid
  omega

theorem increase_le_total {id : String} (hid : id ∈ CpuTicks.ids) :
    increase prev cur id ≤ total prev cur :=
  List.single_le_sum (fun _ _ => Nat.zero_le _) _ (List.mem_map_of_mem hid)

/-- The counters other than `iowait` are not clamped. -/
theorem difference_of_ne (h : Advances prev cur) {id : String} (hid : id ∈ CpuTicks.ids)
    (hne : id ≠ "iowait") : difference prev cur id = increase prev cur id := by
  have hle := h.forward id hid
  have hlt : increase prev cur id < 0x100000000 :=
    Nat.lt_of_le_of_lt (increase_le_total hid) h.lt
  unfold difference CpuLine.taken
  rw [if_neg fun hio => hne hio.1, if_neg fun hio => hne hio.1]
  unfold increase at hlt ⊢
  exact subUInt32_mod hle (by omega)

theorem sumTaken_eq (h : Advances prev cur) : sumTaken prev cur
    = (others prev cur + difference prev cur "iowait") % 0x100000000 := by
  have hsame : (CpuTicks.ids.filter (· != "iowait")).map (difference prev cur)
      = (CpuTicks.ids.filter (· != "iowait")).map (increase prev cur) :=
    List.map_congr_left fun id hid => by
      obtain ⟨hid, hne⟩ := List.mem_filter.mp hid
      exact difference_of_ne h hid (by simpa using hne)
  unfold sumTaken
  rw [sum_ids, hsame]
  rfl

/-- What a reading publishes. -/
def publishedOf (prev cur : CpuLine) : Published :=
  shown.map (fun id => (id, quotient (difference prev cur id * 100) (sumTaken prev cur)))

theorem lookup_publishedOf {id : String} (hid : id ∈ shown) : (publishedOf prev cur).lookup id
    = some (quotient (difference prev cur id * 100) (sumTaken prev cur)) := by
  have hlookup : ∀ keys : List String, id ∈ keys → (keys.map (fun id =>
      (id, quotient (difference prev cur id * 100) (sumTaken prev cur)))).lookup id
        = some (quotient (difference prev cur id * 100) (sumTaken prev cur)) := by
    intro keys hkeys
    induction keys with
    | nil => exact absurd hkeys List.not_mem_nil
    | cons key keys ih =>
        by_cases hkey : id = key
        · rw [hkey, List.map_cons, List.lookup_cons_self]
        · rw [List.map_cons, Json.lookup_cons_of_ne _ _ hkey]
          exact ih ((List.mem_cons.mp hkeys).resolve_left hkey)
  exact hlookup shown hid

/-- The share of `iowait` decides whether all shares are exact. -/
theorem shares_of_iowait (h : Advances prev cur)
    (hio : difference prev cur "iowait" = increase prev cur "iowait" ∨
      others prev cur = 0 ∧ difference prev cur "iowait" ≠ 0) :
    ∀ id ∈ shown, quotient (difference prev cur id * 100) (sumTaken prev cur)
      = some (100 * (increase prev cur id : ℚ) / total prev cur) := by
  have htotal : total prev cur = others prev cur + increase prev cur "iowait" := sum_ids _
  have hpos := h.pos
  have hlt := h.lt
  have hd : difference prev cur "iowait" < 0x100000000 := Nat.mod_lt _ (by decide)
  intro id hid
  have hid' : id ∈ CpuTicks.ids := List.mem_of_mem_filter hid
  rw [sumTaken_eq h]
  by_cases hname : id = "iowait"
  · rw [hname, htotal]
    exact (quotient_eq_share_iff (by omega) (by omega) hd).mpr hio
  · rw [difference_of_ne h hid' hname, quotient_eq_iff (by omega)]
    rcases hio with hsame | ⟨hothers, hne⟩
    · rw [hsame, ← htotal, Nat.mod_eq_of_lt hlt]
      exact ⟨by omega, rfl⟩
    · have hzero : increase prev cur id = 0 := by
        unfold increase
        rw [(others_eq_zero_iff h).mp hothers id hid' hname, Nat.sub_self]
      rw [hothers, Nat.zero_add, Nat.mod_eq_of_lt hd, hzero, Nat.zero_mul, Nat.zero_mul]
      exact ⟨hne, rfl⟩

/-- The shares of some counters add up to the share of their sum. -/
theorem sum_shares (f : String → Nat) (n : Nat) (keys : List String) :
    (keys.map (fun id => 100 * (f id : ℚ) / n)).sum = 100 * ((keys.map f).sum : Nat) / n := by
  induction keys with
  | nil => simp
  | cons key keys ih =>
      rw [List.map_cons, List.sum_cons, ih, List.map_cons, List.sum_cons, Nat.cast_add, mul_add,
        add_div]

/-- Exact shares are percentages. -/
theorem exact_of_shares (h : Advances prev cur)
    (hshares : ∀ id ∈ shown, quotient (difference prev cur id * 100) (sumTaken prev cur)
      = some (100 * (increase prev cur id : ℚ) / total prev cur)) :
    Exact prev cur (publishedOf prev cur) := by
  have hpos : (0 : ℚ) < total prev cur := Nat.cast_pos.mpr h.pos
  refine ⟨fun id hid => by rw [lookup_publishedOf hid, hshares id hid], ?_, ?_⟩
  · intro e he
    obtain ⟨id, hid, rfl⟩ := List.mem_map.mp he
    have hle : (increase prev cur id : ℚ) ≤ total prev cur :=
      Nat.cast_le.mpr (increase_le_total (List.mem_of_mem_filter hid))
    dsimp only
    rw [hshares id hid]
    refine ⟨_, rfl, div_nonneg (by positivity) hpos.le, ?_⟩
    rw [div_le_iff₀ hpos]
    linarith
  · have hvalues : (publishedOf prev cur).filterMap Prod.snd
        = shown.map (fun id => 100 * (increase prev cur id : ℚ) / total prev cur) := by
      unfold publishedOf
      rw [List.filterMap_map, ← List.filterMap_eq_map]
      refine List.filterMap_congr fun id hid => ?_
      rw [Function.comp_apply, Function.comp_apply, hshares id hid]
    have hsum : (shown.map (increase prev cur)).sum ≤ total prev cur := by
      have hshown : shown = ["iowait", "irq", "nice", "softirq", "system", "user"] := by decide
      unfold total
      rw [hshown]
      simp only [CpuTicks.ids, List.map_cons, List.map_nil, List.sum_cons, List.sum_nil]
      omega
    rw [hvalues, sum_shares, div_le_iff₀ hpos]
    exact mul_le_mul_of_nonneg_left (Nat.cast_le.mpr hsum) (by norm_num)

theorem exact_iff (h : Advances prev cur) :
    Exact prev cur (publishedOf prev cur) ↔ Unclamped prev cur := by
  have htotal : total prev cur = others prev cur + increase prev cur "iowait" := sum_ids _
  have hpos := h.pos
  have hlt := h.lt
  have hd : difference prev cur "iowait" < 0x100000000 := Nat.mod_lt _ (by decide)
  have hle := h.forward "iowait" (by decide)
  have hclamp := difference_iff hle (by unfold increase at htotal; omega) (others prev cur = 0)
  have htaken : ∀ l : CpuLine, l.taken "iowait" = if 10000000 < l.counts "iowait" % 0x100000000
      then 0 else l.counts "iowait" % 0x100000000 := by
    intro l
    simp [CpuLine.taken]
  have hio : (difference prev cur "iowait" = increase prev cur "iowait" ∨
      others prev cur = 0 ∧ difference prev cur "iowait" ≠ 0) ↔ Unclamped prev cur := by
    unfold difference Unclamped
    rw [htaken, htaken, ← others_eq_zero_iff h]
    exact hclamp
  rw [← hio]
  constructor
  · intro hexact
    have hshare := hexact.shares "iowait" (by decide)
    rw [lookup_publishedOf (by decide), Option.some_inj, sumTaken_eq h, htotal] at hshare
    exact (quotient_eq_share_iff (by omega) (by omega) hd).mp hshare
  · exact fun hor => exact_of_shares h (shares_of_iowait h hor)

end Step

/-! ### Runs -/

/-- A new collector after some readings of its line. -/
def run (lines : List CpuLine) : CpuTicks :=
  lines.foldl (fun r l => (r.setRaw (tokens l.text)).1) {}

theorem holds_run (before : List CpuLine) (prev : CpuLine) : Holds (run (before ++ [prev])) prev := by
  unfold run
  rw [List.foldl_append]
  exact holds_setRaw _ prev

/-- In every run of readings whose counters advance, the shares are exact from the second
reading on, if and only if the clamp does not show between any two of them. -/
theorem percentages_exact_iff (lines : List CpuLine) (h : lines.IsChain Advances) :
    (∀ before prev cur after, lines = before ++ prev :: cur :: after →
      Exact prev cur ((run (before ++ [prev])).setRaw (tokens cur.text)).2) ↔
      lines.IsChain Unclamped := by
  have hstep : ∀ before prev cur after, lines = before ++ prev :: cur :: after →
      (Exact prev cur ((run (before ++ [prev])).setRaw (tokens cur.text)).2
        ↔ Unclamped prev cur) := by
    intro before prev cur after hlines
    rw [published_setRaw (holds_run before prev)]
    exact exact_iff (List.isChain_iff_forall_rel_of_append_cons_cons.mp h hlines)
  rw [List.isChain_iff_forall_rel_of_append_cons_cons]
  constructor
  · intro hexact prev cur before after hlines
    exact (hstep before prev cur after hlines).mp (hexact before prev cur after hlines)
  · intro hclamp before prev cur after hlines
    exact (hstep before prev cur after hlines).mpr (hclamp hlines)

/-- A line with some ticks of a user, some idle ones, and some of `iowait`. -/
def ticks (user idle iowait : Nat) : CpuLine where
  name := "cpu0"
  counts := fun id => if id = "user" then user else if id = "idle" then idle
    else if id = "iowait" then iowait else 7
  more := [0, 0, 0]
  name_word := by decide

/-- Above ten millions, `iowait` may stand still. -/
theorem percentages_exact_still : Exact (ticks 5 10 20000000) (ticks 8 11 20000000)
    ((run [ticks 5 10 20000000]).setRaw (tokens (ticks 8 11 20000000).text)).2 :=
  (percentages_exact_iff [ticks 5 10 20000000, ticks 8 11 20000000]
    (List.isChain_pair.mpr ⟨by decide, by decide, by decide⟩)).mpr
    (List.isChain_pair.mpr (.inr (.inl rfl))) [] _ _ [] rfl

/-- The reading at which `iowait` crosses ten millions. -/
theorem not_exact_crossing : ¬ ∀ lines : List CpuLine, lines.IsChain Advances →
    ∀ before prev cur after, lines = before ++ prev :: cur :: after →
      Exact prev cur ((run (before ++ [prev])).setRaw (tokens cur.text)).2 := by
  intro h
  have hadvances : Advances (ticks 100 0 10000000) (ticks 200 0 10000001) :=
    ⟨by decide, by decide, by decide⟩
  have hexact := h [ticks 100 0 10000000, ticks 200 0 10000001]
    (List.isChain_pair.mpr hadvances) [] _ _ [] rfl
  rw [published_setRaw (holds_run [] _)] at hexact
  have hclamp := (exact_iff hadvances).mp hexact
  revert hclamp
  unfold Unclamped
  decide

end WatchedAgent.Proofs.CpuPercentages
