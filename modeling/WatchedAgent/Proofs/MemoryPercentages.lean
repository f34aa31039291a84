import Mathlib.Tactic.Linarith
import WatchedAgent.Lib.Counters
import WatchedAgent.Lib.Fallible
import WatchedAgent.Model.SystemCollectors

/-!
# `WatchedAgent.Proofs.MemoryPercentages`: the shares of free memory

`MemoryCollector::collect` cuts the lines of `/proc/meminfo` by hand, and multiplies by 100
before it divides, in a `uint32_t`.

* `foldlM_readLine`: any text is read, and the last line of a name counts.
* `value_text`: a line of any padding is read back.
* `right_iff`: the shares are right as long as the products fit, which is up to 41 GiB.
-/

set_option autoImplicit false

namespace WatchedAgent.Proofs.MemoryPercentages

open WatchedAgent.Lib
open WatchedAgent.Lib.Counters
open WatchedAgent.Lib.Fallible
open WatchedAgent.Lib.Text
open WatchedAgent.Model
open WatchedAgent.Model.MemoryCollector

/-! ### The loop -/

/-- The name on a line. -/
def lineName (line : String) : String :=
  String.ofList (line.toList.take ((find line ':' 0).getD line.length))

/-- The number of the last line with the name, as the collector reads it. -/
def lastNumber (meminfo name : String) : Nat :=
  (lastReading ((linesOf meminfo).map fun line => (lineName line, (value line).getD 0)) name).getD 0

/-- A number starts inside its line, or right after it. -/
theorem start_le (line : String) : start line ≤ line.length := by
  -- Without a colon, the search starts at zero: `npos + 1` wraps.
  have hcolon : posAdd (find line ':' 0) 1 ≤ line.length := by
    unfold find
    rw [List.drop_zero]
    cases hi : line.toList.findIdx? (· == ':') with
    | none => exact Nat.zero_le _
    | some i =>
        have hlt := (List.findIdx?_eq_some_iff_findIdx_eq.mp hi).1
        rw [String.length_toList] at hlt
        exact hlt
  unfold start
  dsimp only
  cases hj : (line.toList.drop (posAdd (find line ':' 0) 1)).findIdx? (· != ' ') with
  | none => exact hcolon
  | some j =>
      have hlt := (List.findIdx?_eq_some_iff_findIdx_eq.mp hj).1
      rw [List.length_drop, String.length_toList] at hlt
      show j + posAdd (find line ':' 0) 1 ≤ line.length
      omega

/-- A line is read without an exception. -/
theorem readLine_eq (l : String → Nat) (line : String) : readLine l line
    = some (if lineName line ∈ names then Function.update l (lineName line) ((value line).getD 0)
      else l) := by
  obtain ⟨v, hv⟩ : ∃ v, value line = some v := by
    unfold value substrN
    dsimp only
    rw [if_pos (start_le line)]
    exact ⟨_, rfl⟩
  have hname : substrN line 0 ((find line ':' 0).getD line.length) = some (lineName line) := by
    unfold substrN
    rw [if_pos (Nat.zero_le _), List.drop_zero, lineName]
  unfold readLine
  rw [hname, hv]
  rfl

/-- The variables after the loop. -/
theorem foldlM_readLine (lines : List String) :
    ∃ vars, lines.foldlM readLine (fun _ => 0) = some vars ∧ ∀ name ∈ names,
      vars name = (lastReading (lines.map fun line => (lineName line, (value line).getD 0))
        name).getD 0 := by
  induction lines using List.reverseRecOn with
  | nil => exact ⟨fun _ => 0, rfl, fun _ _ => rfl⟩
  | append_singleton lines line ih =>
      obtain ⟨vars, hfold, hvars⟩ := ih
      refine ⟨if lineName line ∈ names
        then Function.update vars (lineName line) ((value line).getD 0) else vars, ?_,
        fun name hname => ?_⟩
      · rw [foldlM_append_some hfold, foldlM_cons_some (readLine_eq vars line), List.foldlM_nil,
          Option.pure_def]
      · rw [List.map_append, List.map_singleton, lastReading_append]
        -- The last line of a name overwrites the others.
        by_cases heq : name = lineName line
        · rw [if_pos heq, ← heq, if_pos hname, Function.update_self, Option.getD_some]
        · rw [if_neg heq, ← hvars name hname]
          split
          · exact Function.update_of_ne heq _ _
          · rfl

/-- What is published of a text with lines. -/
theorem collect_lines (meminfo : String) : ∃ vars,
    collect meminfo = some (if (linesOf meminfo).isEmpty then none
      else some (swap vars, memory vars)) ∧ ∀ name ∈ names, vars name = lastNumber meminfo name := by
  obtain ⟨vars, hfold, hvars⟩ := foldlM_readLine (linesOf meminfo)
  refine ⟨vars, ?_, hvars⟩
  unfold collect
  dsimp only
  rw [hfold]
  rfl

/-! ### The file -/

/-- A line `Name:    number kB`. The unit may be missing. -/
structure MemLine where
  name : String
  blanks : Nat
  kB : Nat
  unit : String
  name_text : ∀ c ∈ name.toList, c ≠ ':' ∧ c ≠ '\n'
  unit_text : '\n' ∉ unit.toList
  unit_head : ∀ c ∈ unit.toList.head?, c = ' '

namespace MemLine
variable (l : MemLine)

/-- The text of the line. -/
def text : String :=
  String.ofList (l.name.toList ++ ':' :: (List.replicate l.blanks ' ' ++
    (Nat.toDigits 10 l.kB ++ l.unit.toList)))

theorem toList_text : l.text.toList = l.name.toList ++ ':' ::
    (List.replicate l.blanks ' ' ++ (Nat.toDigits 10 l.kB ++ l.unit.toList)) :=
  String.toList_ofList

theorem find_text : find l.text ':' 0 = some l.name.toList.length :=
  find_of_split l.toList_text fun h => (l.name_text ':' h).1 rfl

/-- Where the number starts. -/
def place : Nat := l.name.toList.length + 1 + l.blanks

theorem drop_place : l.text.toList.drop l.place = Nat.toDigits 10 l.kB ++ l.unit.toList := by
  have hsplit : l.text.toList = (l.name.toList ++ ':' :: List.replicate l.blanks ' ')
      ++ (Nat.toDigits 10 l.kB ++ l.unit.toList) := by
    simp [toList_text]
  have hlen : l.place = (l.name.toList ++ ':' :: List.replicate l.blanks ' ').length := by
    unfold place
    simp only [List.length_append, List.length_cons, List.length_replicate]
    omega
  rw [hsplit, hlen, List.drop_left]

/-- The number starts at the first character that is not a blank. -/
theorem start_text : start l.text = l.place := by
  obtain ⟨d, ds, hds⟩ := exists_toDigits 10 l.kB
  have hd : d ≠ ' ' := by
    have hmem : ' ' ∉ Nat.toDigits 10 l.kB := not_mem_toDigits isBase_ten (by decide)
    rw [hds, List.mem_cons, not_or] at hmem
    exact Ne.symm hmem.1
  have hdrop : l.text.toList.drop (l.name.toList.length + 1)
      = List.replicate l.blanks ' ' ++ d :: (ds ++ l.unit.toList) := by
    rw [toList_text, hds, List.drop_append]
    simp
  have hindex : (List.replicate l.blanks ' ' ++ d :: (ds ++ l.unit.toList)).findIdx? (· != ' ')
      = some l.blanks := by
    have hnone : (List.replicate l.blanks ' ').findIdx? (· != ' ') = none := by
      rw [List.findIdx?_eq_none_iff]
      intro c hc
      rw [List.eq_of_mem_replicate hc]
      decide
    rw [List.findIdx?_append, hnone, List.findIdx?_cons]
    simp [hd]
  unfold start
  rw [l.find_text]
  show ((((l.text.toList.drop (l.name.toList.length + 1)).findIdx? (· != ' ')).map
    (· + (l.name.toList.length + 1))).getD _) = _
  rw [hdrop, hindex]
  unfold place
  simp only [Option.map_some, Option.getD_some]
  omega

/-- What is cut out is the number. -/
theorem value_text : value l.text = some (l.kB % 0x100000000) := by
  obtain ⟨d, ds, hds⟩ := exists_toDigits 10 l.kB
  have hblank : ' ' ∉ Nat.toDigits 10 l.kB := not_mem_toDigits isBase_ten (by decide)
  have hlater : l.text.toList.drop (l.place + 1) = ds ++ l.unit.toList := by
    rw [← List.drop_drop, l.drop_place, hds]
    rfl
  have hinside : l.place ≤ l.text.length := by
    rw [← String.length_toList, l.toList_text]
    unfold place
    simp only [List.length_append, List.length_cons, List.length_replicate]
    omega
  -- The cut ends at the blank before the unit, or at the end of the line.
  have hcut : (l.text.toList.drop l.place).take
      (posSub (find l.text ' ' (l.place + 1)) l.place l.text.length) = Nat.toDigits 10 l.kB := by
    have hlen : (Nat.toDigits 10 l.kB).length = ds.length + 1 := congrArg List.length hds
    unfold find
    rw [hlater, l.drop_place]
    cases hunit : l.unit.toList with
    | nil =>
        have hnone : ds.findIdx? (· == ' ') = none := by
          rw [List.findIdx?_eq_none_iff]
          intro c hc
          have hne : c ≠ ' ' := fun heq =>
            hblank (by rw [hds, ← heq]; exact List.mem_cons_of_mem _ hc)
          simpa using hne
        have hwhole : (Nat.toDigits 10 l.kB).length ≤ l.text.length := by
          rw [← String.length_toList, l.toList_text]
          simp only [List.length_append, List.length_cons]
          omega
        rw [List.append_nil, List.append_nil, hnone]
        exact List.take_of_length_le hwhole
    | cons c u =>
        obtain rfl : c = ' ' := l.unit_head c (by rw [hunit]; rfl)
        have hds' : ' ' ∉ ds := fun h => hblank (by rw [hds]; exact List.mem_cons_of_mem _ h)
        rw [findIdx?_of_split hds']
        have hsub : posSub (some (ds.length + (l.place + 1))) l.place l.text.length
            = ds.length + 1 := by
          show (if l.place ≤ ds.length + (l.place + 1) then _ else _) = _
          rw [if_pos (by omega)]
          omega
        show List.take (posSub (some (ds.length + (l.place + 1))) l.place l.text.length) _ = _
        rw [hsub, ← hlen, List.take_left]
  unfold value
  dsimp only
  rw [l.start_text]
  unfold substrN
  rw [if_pos hinside, hcut]
  have hnumber : atoi (String.ofList (Nat.toDigits 10 l.kB)) = l.kB :=
    atoi_toDigits (a := []) (b := []) (by rw [String.toList_ofList]; simp) (by simp)
      (by simp [Ends])
  show some (toUInt32 (atoi (String.ofList (Nat.toDigits 10 l.kB)))) = _
  rw [hnumber]
  rfl

theorem lineName_text : lineName l.text = l.name := by
  unfold lineName
  rw [l.find_text, Option.getD_some, l.toList_text, List.take_left, String.ofList_toList]

theorem not_mem_text : '\n' ∉ l.text.toList := by
  have hname : '\n' ∉ l.name.toList := fun h => (l.name_text '\n' h).2 rfl
  have hdigit : '\n' ∉ Nat.toDigits 10 l.kB := not_mem_toDigits isBase_ten (by decide)
  rw [l.toList_text]
  simp [hname, hdigit, l.unit_text]

end MemLine

/-- The text of the file. -/
def meminfo (lines : List MemLine) : String := fileOf (lines.map MemLine.text)

/-- The value under a name, which is that of the last line with the name. -/
def kB (lines : List MemLine) (name : String) : Nat :=
  (lastReading (lines.map (fun l => (l.name, l.kB))) name).getD 0

theorem linesOf_meminfo (lines : List MemLine) :
    linesOf (meminfo lines) = lines.map MemLine.text :=
  linesOf_fileOf (List.forall_mem_map.mpr fun l _ => l.not_mem_text)

theorem lastNumber_meminfo (lines : List MemLine) (name : String) :
    lastNumber (meminfo lines) name = kB lines name % 0x100000000 := by
  have hlines : (linesOf (meminfo lines)).map (fun line => (lineName line, (value line).getD 0))
      = (lines.map fun l => (l.name, l.kB)).map fun e => (e.1, e.2 % 0x100000000) := by
    rw [linesOf_meminfo, List.map_map, List.map_map]
    refine List.map_congr_left fun l _ => ?_
    show (lineName l.text, (value l.text).getD 0) = (l.name, l.kB % 0x100000000)
    rw [l.lineName_text, l.value_text, Option.getD_some]
  unfold lastNumber kB
  rw [hlines, lastReading_map (· % 0x100000000)]
  cases lastReading (lines.map fun l => (l.name, l.kB)) name <;> rfl

/-! ### The shares -/

/-- The machine: values below `2 ^ 31`, and no more free than there is. -/
structure Sane (lines : List MemLine) : Prop where
  small : ∀ l ∈ lines, l.kB < 0x80000000
  memTotal : 0 < kB lines "MemTotal"
  swapTotal : 0 < kB lines "SwapTotal"
  memFree : kB lines "MemFree" ≤ kB lines "MemTotal"
  swapFree : kB lines "SwapFree" ≤ kB lines "SwapTotal"

/-- The published shares are those of the free memory and the free swap in percent, and the
free and the used swap add up to the whole. -/
structure Right (lines : List MemLine) (swap memory : Published) : Prop where
  memory_pct : memory.lookup "pct"
    = some (some (100 * (kB lines "MemFree" : ℚ) / kB lines "MemTotal"))
  swap_pct : swap.lookup "pct"
    = some (some (100 * (kB lines "SwapFree" : ℚ) / kB lines "SwapTotal"))
  percentages : ∀ q, memory.lookup "pct" = some (some q) ∨ swap.lookup "pct" = some (some q) →
    0 ≤ q ∧ q ≤ 100
  swap_total : ∃ free used, swap.lookup "free" = some (some free) ∧
    swap.lookup "used" = some (some used) ∧ free + used = kB lines "SwapTotal"

theorem kB_lt {lines : List MemLine} (h : ∀ l ∈ lines, l.kB < 0x80000000) (name : String) :
    kB lines name < 0x80000000 := by
  unfold kB
  cases hlast : lastReading (lines.map (fun l => (l.name, l.kB))) name with
  | none =>
      rw [Option.getD_none]
      omega
  | some n =>
      obtain ⟨l, hl, heq⟩ := List.mem_map.mp (mem_of_lastReading hlast)
      rw [Option.getD_some, ← (Prod.mk.inj heq).2]
      exact h l hl

/-- A share is exact if its product fits. -/
theorem quotient_eq_percent_iff (free : Nat) {total : Nat} (htotal : 0 < total) :
    quotient (mulUInt32 100 free) total = some (100 * (free : ℚ) / total)
      ↔ 100 * free < 0x100000000 := by
  have htotal' : (total : ℚ) ≠ 0 := Nat.cast_ne_zero.mpr (by omega)
  have hcast : (100 * (free : ℚ)) = ((100 * free : Nat) : ℚ) := by push_cast; rfl
  rw [quotient_of_ne _ htotal', Option.some_inj, div_left_inj' htotal', hcast, Nat.cast_inj]
  unfold mulUInt32
  omega

section Published
variable {lines : List MemLine} {vars : String → Nat}

/-- The variables hold the values of the file. -/
def Holds (lines : List MemLine) (vars : String → Nat) : Prop :=
  ∀ name ∈ names, vars name = kB lines name

theorem collect_meminfo (h : Sane lines) :
    ∃ vars, collect (meminfo lines) = some (some (swap vars, memory vars)) ∧ Holds lines vars := by
  obtain ⟨vars, hcollect, hvars⟩ := collect_lines (meminfo lines)
  have hne : (linesOf (meminfo lines)).isEmpty = false := by
    rw [linesOf_meminfo, List.isEmpty_eq_false_iff]
    intro hnil
    have hpos := h.memTotal
    rw [List.map_eq_nil_iff.mp hnil] at hpos
    exact absurd hpos (Nat.lt_irrefl 0)
  refine ⟨vars, ?_, fun name hname => ?_⟩
  · rw [hcollect, hne]
    rfl
  · have hlt := kB_lt h.small name
    rw [hvars name hname, lastNumber_meminfo]
    exact Nat.mod_eq_of_lt (by omega)

/-- The share of a part is a percentage. -/
theorem percentage {part whole : Nat} (hwhole : 0 < whole) (hle : part ≤ whole) :
    0 ≤ 100 * (part : ℚ) / whole ∧ 100 * (part : ℚ) / whole ≤ 100 := by
  have hwhole' : (0 : ℚ) < whole := Nat.cast_pos.mpr hwhole
  have hle' : (part : ℚ) ≤ whole := Nat.cast_le.mpr hle
  have hpart : (0 : ℚ) ≤ part := Nat.cast_nonneg part
  refine ⟨div_nonneg (by linarith) hwhole'.le, ?_⟩
  rw [div_le_iff₀ hwhole']
  linarith

theorem right_iff_products (h : Sane lines) (hvars : Holds lines vars) :
    Right lines (swap vars) (memory vars)
      ↔ 100 * kB lines "MemFree" < 0x100000000 ∧ 100 * kB lines "SwapFree" < 0x100000000 := by
  have hmemory : (memory vars).lookup "pct"
      = some (quotient (mulUInt32 100 (kB lines "MemFree")) (kB lines "MemTotal")) := by
    rw [← hvars "MemFree" (by decide), ← hvars "MemTotal" (by decide)]
    rfl
  have hswap : (swap vars).lookup "pct"
      = some (quotient (mulUInt32 100 (kB lines "SwapFree")) (kB lines "SwapTotal")) := by
    rw [← hvars "SwapFree" (by decide), ← hvars "SwapTotal" (by decide)]
    rfl
  have hmemory_iff := quotient_eq_percent_iff (kB lines "MemFree") h.memTotal
  have hswap_iff := quotient_eq_percent_iff (kB lines "SwapFree") h.swapTotal
  constructor
  · intro hright
    have hm := hright.memory_pct
    have hs := hright.swap_pct
    rw [hmemory, Option.some_inj] at hm
    rw [hswap, Option.some_inj] at hs
    exact ⟨hmemory_iff.mp hm, hswap_iff.mp hs⟩
  · rintro ⟨hm, hs⟩
    have hm' := hmemory.trans (congrArg some (hmemory_iff.mpr hm))
    have hs' := hswap.trans (congrArg some (hswap_iff.mpr hs))
    refine ⟨hm', hs', ?_, _, _, rfl, rfl, ?_⟩
    · rintro q (hq | hq)
      · rw [hm', Option.some_inj, Option.some_inj] at hq
        rw [← hq]
        exact percentage h.memTotal h.memFree
      · rw [hs', Option.some_inj, Option.some_inj] at hq
        rw [← hq]
        exact percentage h.swapTotal h.swapFree
    · have hle := h.swapFree
      have hlt := kB_lt h.small "SwapTotal"
      have hused : subUInt32 (kB lines "SwapTotal") (kB lines "SwapFree")
          = kB lines "SwapTotal" - kB lines "SwapFree" := by
        unfold subUInt32
        omega
      rw [hvars "SwapFree" (by decide), hvars "SwapTotal" (by decide), hused, Nat.cast_sub hle]
      exact add_sub_cancel _ _

end Published

/-- For every file of a sane machine, in any order and with any padding, the shares are right
if and only if the products fit: below `2 ^ 32`, which is up to 42949672 kB free. -/
theorem right_iff (lines : List MemLine) (h : Sane lines) :
    (∃ swap memory, collect (meminfo lines) = some (some (swap, memory)) ∧
      Right lines swap memory) ↔
      kB lines "MemFree" ≤ 42949672 ∧ kB lines "SwapFree" ≤ 42949672 := by
  obtain ⟨vars, hcollect, hvars⟩ := collect_meminfo h
  have hright := right_iff_products h hvars
  rw [hcollect]
  constructor
  · rintro ⟨s, m, heq, hsm⟩
    obtain ⟨rfl, rfl⟩ := Prod.mk.inj (Option.some.inj (Option.some.inj heq))
    have hproducts := hright.mp hsm
    omega
  · intro hfree
    exact ⟨_, _, rfl, hright.mpr (by omega)⟩

/-- A line with the unit. -/
def line (name : String) (blanks kB : Nat) (h : ∀ c ∈ name.toList, c ≠ ':' ∧ c ≠ '\n') : MemLine where
  name := name
  blanks := blanks
  kB := kB
  unit := " kB"
  name_text := h
  unit_text := by decide
  unit_head := by simp

/-- The file of a machine with 64 GiB of memory and 2 GiB of swap. -/
def machine (free : Nat) : List MemLine :=
  [line "MemTotal" 7 67108864 (by decide), line "MemFree" 8 free (by decide),
    line "SwapTotal" 7 2097152 (by decide), line "SwapFree" 7 1048576 (by decide)]

theorem sane_machine {free : Nat} (h : free ≤ 67108864) : Sane (machine free) := by
  have hmem : kB (machine free) "MemTotal" = 67108864 := rfl
  have hfree : kB (machine free) "MemFree" = free := rfl
  have hswap : kB (machine free) "SwapTotal" = 2097152 := rfl
  have hswapFree : kB (machine free) "SwapFree" = 1048576 := rfl
  refine ⟨?_, by omega, by omega, by omega, by omega⟩
  simp only [machine, line, List.forall_mem_cons]
  exact ⟨by omega, by omega, by omega, by omega, fun _ h => absurd h List.not_mem_nil⟩

theorem right_machine : ∃ swap memory, collect (meminfo (machine 8388608))
    = some (some (swap, memory)) ∧ Right (machine 8388608) swap memory :=
  (right_iff (machine 8388608) (sane_machine (by decide))).mpr (by decide)

/-- The same machine with 48 GiB free. -/
theorem not_right_machine : ¬ ∀ lines, Sane lines → ∃ swap memory,
    collect (meminfo lines) = some (some (swap, memory)) ∧ Right lines swap memory := by
  intro h
  have hsane : Sane (machine 50331648) := sane_machine (by decide)
  obtain ⟨s, m, hcollect, hright⟩ := h _ hsane
  obtain ⟨vars, hvars, hholds⟩ := collect_meminfo hsane
  obtain ⟨rfl, rfl⟩ := Prod.mk.inj (Option.some.inj (Option.some.inj (hvars.symm.trans hcollect)))
  have hproducts := (right_iff_products hsane hholds).mp hright
  exact absurd hproducts.1 (by decide)

end WatchedAgent.Proofs.MemoryPercentages
