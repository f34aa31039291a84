import Mathlib.Algebra.GroupWithZero.Nat
import WatchedAgent.Lib.Fallible
import WatchedAgent.Model.LuaCollectors

/-!
# `WatchedAgent.Proofs.MemCollectors`: the two collectors of memory

`ServMemCollector` and `mem.lua` add up numbers of the same files. The first takes the text
before the colon as the name of a line, the script the first run of letters. The name
`Shared_Clean` is no run of letters, so the script always publishes that 0 kB are shared.

`memSamples_agree_iff` is the exact condition for equal samples: every `Shared_Clean` line shows
0, and so does every line whose name only starts with `Rss` or `Swap`.
`not_samplesAgree_shared` is a file with shared memory.
-/

set_option autoImplicit false

namespace WatchedAgent.Proofs.MemCollectors

open WatchedAgent.Lib
open WatchedAgent.Lib.Fallible
open WatchedAgent.Lib.Text
open WatchedAgent.Model

/-! ### The files -/

/-- `%0*lx`. -/
def hexPad (width n : Nat) : List Char := (Nat.toDigits 16 n).leftpad width '0'

theorem all_hexPad {width n : Nat} {p : Char → Prop} (hp : ∀ d < 16, p (Nat.digitChar d)) :
    ∀ c ∈ hexPad width n, p c :=
  all_leftpad isBase_sixteen width hp

/-- The line that starts a mapping. The name is that of the file, with the blanks before
it. -/
structure Mapping where
  start : Nat
  stop : Nat
  readable : Bool
  writable : Bool
  executable : Bool
  shared : Bool
  offset : Nat
  major : Nat
  minor : Nat
  inode : Nat
  name : String
  name_line : '\n' ∉ name.toList

namespace Mapping
variable (m : Mapping)

/-- The addresses and the permissions. -/
def head : List Char :=
  hexPad 8 m.start ++ '-' :: (hexPad 8 m.stop ++ [' ', if m.readable then 'r' else '-',
    if m.writable then 'w' else '-', if m.executable then 'x' else '-',
    if m.shared then 's' else 'p'])

/-- The offset and the device, up to its colon. -/
def device : List Char := ' ' :: (hexPad 8 m.offset ++ ' ' :: hexPad 2 m.major)

/-- The text of the line. -/
def text : String :=
  String.ofList (m.head ++ (m.device ++ ':' :: (hexPad 2 m.minor ++ ' ' ::
    (Nat.toDigits 10 m.inode ++ ' ' :: m.name.toList))))

/-- A property of the digits and of the few other characters holds of the head. -/
theorem all_head {p : Char → Prop} (hdigit : ∀ d < 16, p (Nat.digitChar d))
    (hother : ∀ c ∈ ['-', ' ', 'r', 'w', 'x', 's', 'p'], p c) : ∀ c ∈ m.head, p c := by
  simp only [List.forall_mem_cons, List.not_mem_nil, false_imp_iff, implies_true, and_true]
    at hother
  obtain ⟨hdash, hblank, hr, hw, hx, hs, hp⟩ := hother
  unfold head
  intro c hc
  rcases List.mem_append.mp hc with hc | hc
  · exact all_hexPad hdigit c hc
  · rcases List.mem_cons.mp hc with rfl | hc
    · exact hdash
    · rcases List.mem_append.mp hc with hc | hc
      · exact all_hexPad hdigit c hc
      · simp only [List.mem_cons, List.not_mem_nil, or_false] at hc
        rcases hc with rfl | rfl | rfl | rfl | rfl
        · exact hblank
        · split <;> assumption
        · split <;> assumption
        · split <;> assumption
        · split <;> assumption

/-- The head has a letter, the last one of the permissions. -/
theorem exists_letter : ∃ c ∈ m.head, Lua.isAlpha c = true := by
  refine ⟨if m.shared then 's' else 'p', by simp [head], ?_⟩
  split <;> decide

theorem not_mem_device {c : Char} (hdigit : ∀ d < 16, Nat.digitChar d ≠ c) (hblank : ' ' ≠ c) :
    c ∉ m.device := by
  intro hc
  rcases List.mem_cons.mp hc with hc | hc
  · exact hblank hc.symm
  · rcases List.mem_append.mp hc with hc | hc
    · exact all_hexPad (p := (· ≠ c)) hdigit c hc rfl
    · rcases List.mem_cons.mp hc with hc | hc
      · exact hblank hc.symm
      · exact all_hexPad (p := (· ≠ c)) hdigit c hc rfl

end Mapping

/-- A line `Name:    number kB`. -/
structure SmapsEntry where
  name : String
  blanks : Nat
  kB : Nat
  name_solid : ∀ c ∈ name.toList, Lua.isAlpha c = true ∨ c = '_'

/-- The text of the line. -/
def SmapsEntry.text (e : SmapsEntry) : String :=
  String.ofList (e.name.toList ++ ':' :: (List.replicate e.blanks ' ' ++
    (Nat.toDigits 10 e.kB ++ " kB".toList)))

/-- The lines at the end of a mapping, which show no number of kB. -/
inductive Footer where
  | thpEligible
  | protectionKey
  | vmFlags

/-- The name of the line. -/
def Footer.name : Footer → String
  | .thpEligible => "THPeligible"
  | .protectionKey => "ProtectionKey"
  | .vmFlags => "VmFlags"

/-- A line of `/proc/<pid>/smaps`. -/
inductive SmapsLine where
  | mapping (m : Mapping)
  | entry (e : SmapsEntry)
  | footer (a : Footer) (value : String) (h : '\n' ∉ value.toList)

/-- The text of the line. -/
def SmapsLine.text : SmapsLine → String
  | .mapping m => m.text
  | .entry e => e.text
  | .footer a value _ => a.name ++ ":" ++ value

/-- The name and the number of kB, if it shows one. -/
def SmapsLine.shows : SmapsLine → Option (String × Nat)
  | .entry e => some (e.name, e.kB)
  | _ => none

/-! ### A line -/

/-- The numbers of the collector with one more line. -/
def addEntry (l : MemLocals) (e : String × Nat) : MemLocals :=
  if e.1 = "Rss" then { l with total := addUInt32 l.total (toUInt32 e.2) }
  else if e.1 = "Swap" then { l with swap := addUInt32 l.swap (toUInt32 e.2) }
  else if e.1 = "Shared_Clean" then { l with shared := addUInt32 l.shared (toUInt32 e.2) }
  else l

section Entry
variable (l : MemLocals) (e : String × Nat)

theorem addEntry_total : (addEntry l e).total
    = if e.1 = "Rss" then addUInt32 l.total (toUInt32 e.2) else l.total := by
  unfold addEntry
  split
  · rfl
  · split
    · rfl
    · split <;> rfl

theorem addEntry_swap : (addEntry l e).swap
    = if e.1 = "Swap" then addUInt32 l.swap (toUInt32 e.2) else l.swap := by
  unfold addEntry
  by_cases hrss : e.1 = "Rss"
  · rw [if_pos hrss, if_neg (by rw [hrss]; decide)]
  · rw [if_neg hrss]
    split
    · rfl
    · split <;> rfl

theorem addEntry_shared : (addEntry l e).shared
    = if e.1 = "Shared_Clean" then addUInt32 l.shared (toUInt32 e.2) else l.shared := by
  unfold addEntry
  by_cases hrss : e.1 = "Rss"
  · rw [if_pos hrss, if_neg (by rw [hrss]; decide)]
  · by_cases hswap : e.1 = "Swap"
    · rw [if_neg hrss, if_pos hswap, if_neg (by rw [hswap]; decide)]
    · rw [if_neg hrss, if_neg hswap]
      split <;> rfl

end Entry

/-- The word the script takes a line for. -/
def word (name : String) : String := String.ofList (Lua.firstRun Lua.isAlpha name.toList)

/-- The numbers of the script with one more line. -/
def addWord (l : LuaMemLocals) (e : String × Nat) : LuaMemLocals :=
  if word e.1 = "Rss" then { l with total := l.total + e.2 }
  else if word e.1 = "Swap" then { l with swap := l.swap + e.2 }
  else l

section Word
variable (l : LuaMemLocals) (e : String × Nat)

theorem addWord_total :
    (addWord l e).total = if word e.1 = "Rss" then l.total + e.2 else l.total := by
  unfold addWord
  split
  · rfl
  · split <;> rfl

theorem addWord_swap :
    (addWord l e).swap = if word e.1 = "Swap" then l.swap + e.2 else l.swap := by
  unfold addWord
  by_cases hrss : word e.1 = "Rss"
  · rw [if_pos hrss, if_neg (by rw [hrss]; decide)]
  · rw [if_neg hrss]
    split <;> rfl

theorem addWord_shared : (addWord l e).shared = l.shared := by
  unfold addWord
  split
  · rfl
  · split <;> rfl

end Word

section Line

/-- A line whose text before the colon is not one of the three names. -/
theorem readSmapsLine_other {line : String} {a b : List Char} (l : MemLocals)
    (hline : line.toList = a ++ ':' :: b) (ha : ':' ∉ a)
    (hkey : String.ofList a ∉ ["Rss", "Swap", "Shared_Clean"]) :
    ServMemCollector.readSmapsLine l line = some l := by
  have hpos := find_of_split hline ha
  have hlen : a.length + 1 ≤ line.length := by
    rw [← String.length_toList, hline, List.length_append, List.length_cons]
    omega
  have hname : substrN line 0 a.length = some (String.ofList a) := by
    unfold substrN
    rw [if_pos (Nat.zero_le _), List.drop_zero, hline, List.take_left]
  simp only [List.mem_cons, List.not_mem_nil, or_false, not_or] at hkey
  obtain ⟨hrss, hswap, hshared⟩ := hkey
  unfold ServMemCollector.readSmapsLine
  cases findWord line " kB" with
  | none => rfl
  | some kb =>
      have hvalue : substrN line ((String.ofList a).length + 1) kb
          = some (String.ofList ((line.toList.drop ((String.ofList a).length + 1)).take kb)) := by
        unfold substrN
        rw [if_pos (by rw [String.length_ofList]; exact hlen)]
      dsimp only
      rw [hpos, Option.getD_some, hname]
      dsimp only [Option.bind_eq_bind, Option.bind_some]
      rw [hvalue, Option.bind_some, if_neg hrss, if_neg hswap, if_neg hshared]
      rfl

/-- A line whose first word is not one of two leaves the script alone. -/
theorem readSmapsLine_word {line : String} (l : LuaMemLocals)
    (hrss : Lua.luaMatch "(%a+)" line ≠ some "Rss")
    (hswap : Lua.luaMatch "(%a+)" line ≠ some "Swap") :
    LuaMem.readSmapsLine l line = some l := by
  have hshared : Lua.luaMatch "(%a+)" line ≠ some "Shared_Clean" := fun h =>
    absurd (Lua.isAlpha_of_luaMatch h '_' (by decide)) (by decide)
  unfold LuaMem.readSmapsLine
  dsimp only
  rw [if_neg hrss, if_neg hswap, if_neg hshared]

end Line

namespace SmapsEntry
variable (e : SmapsEntry)

theorem toList_text : e.text.toList = e.name.toList ++ ':' ::
    (List.replicate e.blanks ' ' ++ (Nat.toDigits 10 e.kB ++ " kB".toList)) :=
  String.toList_ofList

theorem not_mem_name {c : Char} (hc : Lua.isAlpha c = false) (hne : c ≠ '_') :
    c ∉ e.name.toList := by
  intro hmem
  rcases e.name_solid c hmem with halpha | heq
  · exact absurd halpha (by simp [hc])
  · exact hne heq

/-- The unit is the end of the line. -/
theorem findWord_text : findWord e.text " kB"
    = some (e.name.toList.length + 1 + e.blanks + (Nat.toDigits 10 e.kB).length) := by
  let tail := ':' :: (List.replicate e.blanks ' ' ++ Nat.toDigits 10 e.kB)
  have hsplit : e.text.toList = (e.name.toList ++ tail) ++ (" kB".toList ++ []) := by
    simp [toList_text, tail]
  have hlen : (e.name.toList ++ tail).length
      = e.name.toList.length + 1 + e.blanks + (Nat.toDigits 10 e.kB).length := by
    simp only [tail, List.length_append, List.length_cons, List.length_replicate]
    omega
  have hk : 'k' ∉ tail := by
    have hdigit : 'k' ∉ Nat.toDigits 10 e.kB := not_mem_toDigits isBase_ten (by decide)
    simp [tail, hdigit]
  rw [findWord_of_split hsplit, hlen]
  -- A blank stands only after the name, and there is no `k` after the name.
  intro a c b heq hunit
  obtain ⟨rfl, hrest⟩ : ' ' = c ∧ ['k', 'B'] <+: b ++ [' ', 'k', 'B'] :=
    List.cons_prefix_cons.mp hunit
  cases b with
  | nil => exact absurd (List.cons_prefix_cons.mp hrest).1 (by decide)
  | cons d b =>
      obtain ⟨rfl, -⟩ := List.cons_prefix_cons.mp hrest
      rcases List.append_eq_append_iff.mp heq with ⟨a', -, htail⟩ | ⟨a', hname, htail⟩
      · exact hk (by rw [htail]; simp)
      · cases a' with
        | nil => exact hk (by rw [List.nil_append] at htail; simp [← htail])
        | cons x a' =>
            obtain ⟨rfl, -⟩ := List.cons.inj htail
            exact e.not_mem_name (c := ' ') (by decide) (by decide) (by rw [hname]; simp)

theorem substrN_name : substrN e.text 0 e.name.toList.length = some e.name := by
  unfold substrN
  rw [if_pos (Nat.zero_le _), List.drop_zero, e.toList_text, List.take_left, String.ofList_toList]

/-- From the name on, as many characters are taken as there are before the unit. These are
more than the number has, but it is read to its end only. -/
theorem atoi_substrN : ∃ value, substrN e.text (e.name.length + 1)
    (e.name.toList.length + 1 + e.blanks + (Nat.toDigits 10 e.kB).length) = some value ∧
      atoi value = e.kB := by
  have hlen : e.name.length = e.name.toList.length := String.length_toList.symm
  let kb := e.name.toList.length + 1 + e.blanks + (Nat.toDigits 10 e.kB).length
  let rest := " kB".toList.take (kb - e.blanks - (Nat.toDigits 10 e.kB).length)
  have hdrop : e.text.toList.drop (e.name.length + 1)
      = List.replicate e.blanks ' ' ++ (Nat.toDigits 10 e.kB ++ " kB".toList) := by
    rw [e.toList_text, hlen, List.drop_append]
    simp
  have htake : (e.text.toList.drop (e.name.length + 1)).take kb
      = List.replicate e.blanks ' ' ++ (Nat.toDigits 10 e.kB ++ rest) := by
    rw [hdrop, List.take_append, List.take_append, List.length_replicate,
      List.take_of_length_le (by rw [List.length_replicate]; omega),
      List.take_of_length_le (l := Nat.toDigits 10 e.kB) (by omega)]
  have hinside : e.name.length + 1 ≤ e.text.length := by
    rw [hlen, ← String.length_toList (s := e.text), e.toList_text, List.length_append,
      List.length_cons]
    omega
  have hends : Ends 10 rest := (show Ends 10 " kB".toList by simp [Ends]; decide).take _
  refine ⟨String.ofList (List.replicate e.blanks ' ' ++ (Nat.toDigits 10 e.kB ++ rest)), ?_, ?_⟩
  · unfold substrN
    rw [if_pos hinside, htake]
  · exact atoi_toDigits String.toList_ofList
      (fun c hc => by rw [List.eq_of_mem_replicate hc]; decide) hends

theorem readSmapsLine_text (l : MemLocals) :
    ServMemCollector.readSmapsLine l e.text = some (addEntry l (e.name, e.kB)) := by
  have hpos := find_of_split e.toList_text (e.not_mem_name (by decide) (by decide))
  obtain ⟨value, hvalue, hnumber⟩ := e.atoi_substrN
  unfold ServMemCollector.readSmapsLine addEntry
  rw [e.findWord_text, hpos]
  dsimp only
  rw [Option.getD_some, e.substrN_name]
  dsimp only [Option.bind_eq_bind, Option.bind_some]
  rw [hvalue, Option.bind_some, hnumber]
  split
  · rfl
  · split
    · rfl
    · split <;> rfl

/-- The first word of the line is that of the name, or the unit where the name has none. -/
theorem luaMatch_text : Lua.luaMatch "(%a+)" e.text = some (word e.name) ∨
    word e.name = "" ∧ Lua.luaMatch "(%a+)" e.text = some "kB" := by
  by_cases hletter : ∃ c ∈ e.name.toList, Lua.isAlpha c = true
  · exact .inl (Lua.luaMatch_word e.toList_text hletter (by decide))
  · push Not at hletter
    have hname : ∀ c ∈ e.name.toList, Lua.isAlpha c = false := fun c hc => by
      simpa using hletter c hc
    refine .inr ⟨?_, ?_⟩
    · have hnone := Lua.firstRun_skip hname []
      rw [List.append_nil] at hnone
      unfold word
      rw [hnone]
      rfl
    · -- Everything before the unit is skipped.
      let pre := e.name.toList ++ ':' :: (List.replicate e.blanks ' ' ++
        (Nat.toDigits 10 e.kB ++ [' ']))
      have hsplit : e.text.toList = pre ++ ['k', 'B'] := by
        simp [toList_text, pre]
      have hpre : ∀ c ∈ pre, Lua.isAlpha c = false := by
        have hdigit : ∀ c ∈ Nat.toDigits 10 e.kB, Lua.isAlpha c = false :=
          all_toDigits isBase_ten (by decide)
        intro c hc
        simp only [pre, List.mem_append, List.mem_cons, List.mem_replicate, List.not_mem_nil,
          or_false] at hc
        rcases hc with hc | rfl | ⟨-, rfl⟩ | hc | rfl
        · exact hname c hc
        · decide
        · decide
        · exact hdigit c hc
        · decide
      rw [Lua.luaMatch_plus (p := Lua.isAlpha) rfl ⟨'k', by rw [hsplit]; simp, by decide⟩, hsplit,
        Lua.firstRun_skip hpre]
      rfl

theorem readSmapsLine_word_text (l : LuaMemLocals) :
    LuaMem.readSmapsLine l e.text = some (addWord l (e.name, e.kB)) := by
  rcases e.luaMatch_text with hword | ⟨hname, hunit⟩
  · have hnumber : (Lua.luaMatch "(%d+)" e.text).bind tonumber = some (e.kB : ℚ) := by
      have hsplit : e.text.toList = (e.name.toList ++ ':' :: List.replicate e.blanks ' ') ++
          (Nat.toDigits 10 e.kB ++ " kB".toList) := by
        simp [toList_text]
      refine Lua.luaMatch_number hsplit (fun c hc => ?_) (by simp; decide)
      simp only [List.mem_append, List.mem_cons, List.mem_replicate] at hc
      rcases hc with hc | rfl | ⟨-, rfl⟩
      · rcases e.name_solid c hc with halpha | rfl
        · exact Lua.isDigit_of_isAlpha halpha
        · decide
      · decide
      · decide
    have hshared : word e.name ≠ "Shared_Clean" := fun h =>
      absurd (Lua.isAlpha_of_luaMatch hword '_' (by rw [h]; decide)) (by decide)
    unfold LuaMem.readSmapsLine addWord
    dsimp only
    rw [hword, hnumber]
    simp only [Option.some.injEq, Option.map_some, if_neg hshared]
    split
    · rfl
    · split <;> rfl
  · rw [readSmapsLine_word l (by rw [hunit]; decide) (by rw [hunit]; decide)]
    unfold addWord
    rw [hname, if_neg (by decide), if_neg (by decide)]

end SmapsEntry

namespace Mapping
variable (m : Mapping)

/-- The text before the colon of a mapping has blanks. -/
theorem readSmapsLine_text (l : MemLocals) :
    ServMemCollector.readSmapsLine l m.text = some l := by
  have hline : m.text.toList = (m.head ++ m.device) ++ ':' :: (hexPad 2 m.minor ++ ' ' ::
      (Nat.toDigits 10 m.inode ++ ' ' :: m.name.toList)) := by
    simp [text]
  have hcolon : ':' ∉ m.head ++ m.device := by
    rw [List.mem_append, not_or]
    exact ⟨fun hc => m.all_head (p := (· ≠ ':')) (by decide) (by decide) ':' hc rfl,
      m.not_mem_device (by decide) (by decide)⟩
  refine readSmapsLine_other l hline hcolon fun hkey => ?_
  have hblank : ' ' ∈ (String.ofList (m.head ++ m.device)).toList := by
    rw [String.toList_ofList]
    exact List.mem_append_right _ List.mem_cons_self
  have hkeys : ∀ key ∈ ["Rss", "Swap", "Shared_Clean"], ' ' ∉ key.toList := by decide
  exact hkeys _ hkey hblank

/-- The first letters of a mapping are small ones. -/
theorem readSmapsLine_word_text (l : LuaMemLocals) :
    LuaMem.readSmapsLine l m.text = some l := by
  have hline : m.text.toList = m.head ++ ' ' :: (hexPad 8 m.offset ++ ' ' :: hexPad 2 m.major ++
      ':' :: (hexPad 2 m.minor ++ ' ' :: (Nat.toDigits 10 m.inode ++ ' ' :: m.name.toList))) := by
    simp [text, device]
  have hword := Lua.luaMatch_word hline m.exists_letter (by decide)
  have hne : ∀ c cs, c ∉ m.head →
      Lua.luaMatch "(%a+)" m.text ≠ some (String.ofList (c :: cs)) := by
    intro c cs hc h
    have heq := congrArg String.toList (Option.some.inj (hword.symm.trans h))
    rw [String.toList_ofList, String.toList_ofList] at heq
    exact hc (Lua.mem_of_mem_firstRun (by rw [heq]; exact List.mem_cons_self))
  have hr : 'R' ∉ m.head := fun hc =>
    m.all_head (p := (· ≠ 'R')) (by decide) (by decide) 'R' hc rfl
  have hs : 'S' ∉ m.head := fun hc =>
    m.all_head (p := (· ≠ 'S')) (by decide) (by decide) 'S' hc rfl
  exact readSmapsLine_word l (hne 'R' ['s', 's'] hr) (hne 'S' ['w', 'a', 'p'] hs)

end Mapping

namespace SmapsLine

/-- One step of the collector, for any line. -/
theorem readSmapsLine_text (line : SmapsLine) (l : MemLocals) :
    ServMemCollector.readSmapsLine l line.text
      = some (line.shows.elim l (addEntry l)) := by
  cases line with
  | mapping m => exact m.readSmapsLine_text l
  | entry e => exact e.readSmapsLine_text l
  | footer a value h =>
      refine readSmapsLine_other (a := a.name.toList) (b := value.toList) l ?_ ?_ ?_
      · simp [text]
      · cases a <;> decide
      · cases a <;> decide

/-- One step of the script, for any line. -/
theorem readSmapsLine_word_text (line : SmapsLine) (l : LuaMemLocals) :
    LuaMem.readSmapsLine l line.text
      = some (line.shows.elim l (addWord l)) := by
  cases line with
  | mapping m => exact m.readSmapsLine_word_text l
  | entry e => exact e.readSmapsLine_word_text l
  | footer a value h =>
      have hline : (footer a value h).text.toList = a.name.toList ++ ':' :: value.toList := by
        simp [text]
      have hword := Lua.luaMatch_word hline (by cases a <;> decide) (by decide)
      refine readSmapsLine_word l ?_ ?_
      · rw [hword]
        cases a <;> decide
      · rw [hword]
        cases a <;> decide

theorem not_mem_text (line : SmapsLine) : '\n' ∉ line.text.toList := by
  have hpad : ∀ width n, '\n' ∉ hexPad width n := fun _ _ hc =>
    all_hexPad (p := (· ≠ '\n')) (by decide) _ hc rfl
  have hdigit : ∀ n, '\n' ∉ Nat.toDigits 10 n := fun _ => not_mem_toDigits isBase_ten (by decide)
  cases line with
  | mapping m =>
      have hhead : '\n' ∉ m.head := fun hc =>
        m.all_head (p := (· ≠ '\n')) (by decide) (by decide) _ hc rfl
      have hdevice : '\n' ∉ m.device := m.not_mem_device (by decide) (by decide)
      simp [text, Mapping.text, hhead, hdevice, hpad, hdigit, m.name_line]
  | entry e =>
      have hname : '\n' ∉ e.name.toList := e.not_mem_name (by decide) (by decide)
      simp [text, SmapsEntry.text, hname, hdigit]
  | footer a value h =>
      have hname : '\n' ∉ a.name.toList := by cases a <;> decide
      simp [text, hname, h]

end SmapsLine

/-! ### A pass -/

/-- What a pass finds: the files of the processes. -/
structure MemPass where
  pids : List Nat
  files : Nat → Option (List SmapsLine)

namespace MemPass
variable (p : MemPass)

def toPass : ProcPass where
  pids := p.pids
  files := fun pid =>
    { smaps := (p.files pid).map (fun lines => fileOf (lines.map SmapsLine.text)) }

/-- The names and numbers of all processes. -/
def shown : List (String × Nat) :=
  p.pids.flatMap (fun pid => ((p.files pid).getD []).filterMap SmapsLine.shows)

theorem linesOf_text (lines : List SmapsLine) :
    linesOf (fileOf (lines.map SmapsLine.text)) = lines.map SmapsLine.text :=
  linesOf_fileOf (List.forall_mem_map.mpr fun line _ => line.not_mem_text)

/-- A pass of the collector goes over the names and numbers. -/
theorem foldlM_readProcess (l : MemLocals) :
    p.pids.foldlM (ServMemCollector.readProcess p.toPass.files) l
      = some (p.shown.foldl addEntry l) := by
  unfold shown
  rw [List.foldl_flatMap]
  refine foldlM_of_forall fun l pid _ => ?_
  unfold ServMemCollector.readProcess toPass
  dsimp only
  cases p.files pid with
  | none => rfl
  | some lines =>
      dsimp only [Option.map_some]
      rw [linesOf_text, List.foldlM_map, Option.getD_some]
      exact foldlM_of_filterMap fun l line _ => line.readSmapsLine_text l

/-- And so does a pass of the script. -/
theorem foldlM_readProcess_word (l : LuaMemLocals) :
    p.pids.foldlM (LuaMem.readProcess p.toPass.files) l = some (p.shown.foldl addWord l) := by
  unfold shown
  rw [List.foldl_flatMap]
  refine foldlM_of_forall fun l pid _ => ?_
  unfold LuaMem.readProcess toPass
  dsimp only
  cases p.files pid with
  | none => rfl
  | some lines =>
      dsimp only [Option.map_some]
      rw [linesOf_text, List.foldlM_map, Option.getD_some]
      exact foldlM_of_filterMap fun l line _ => line.readSmapsLine_word_text l

end MemPass

/-! ### The sums -/

/-- The kB shown under a name. `name` says what a line is taken for. -/
def kB (name : String → String) (key : String) (es : List (String × Nat)) : Nat :=
  ((es.filter (fun e => name e.1 = key)).map Prod.snd).sum

theorem kB_cons (name : String → String) (key : String) (e : String × Nat)
    (es : List (String × Nat)) :
    kB name key (e :: es) = (if name e.1 = key then e.2 else 0) + kB name key es := by
  unfold kB
  by_cases hname : name e.1 = key
  · rw [List.filter_cons_of_pos (by simpa using hname), if_pos hname, List.map_cons, List.sum_cons]
  · rw [List.filter_cons_of_neg (by simpa using hname), if_neg hname, Nat.zero_add]

theorem kB_eq_zero_iff (name : String → String) (key : String) (es : List (String × Nat)) :
    kB name key es = 0 ↔ ∀ e ∈ es, name e.1 = key → e.2 = 0 := by
  induction es with
  | nil => simp [kB]
  | cons e es ih =>
      rw [kB_cons, Nat.add_eq_zero_iff, ih, List.forall_mem_cons]
      refine and_congr_left fun _ => ?_
      split
      · simp [*]
      · simp [*]

/-- The sum by words has the lines that only have the word in addition. -/
theorem kB_word (key : String) (hkey : word key = key) (es : List (String × Nat)) :
    kB word key es = kB id key es + kB word key (es.filter (fun e => e.1 ≠ key)) := by
  induction es with
  | nil => rfl
  | cons e es ih =>
      rw [kB_cons, kB_cons, ih]
      by_cases he : e.1 = key
      · rw [List.filter_cons_of_neg (by simpa using he), he, if_pos hkey, if_pos (by rfl)]
        omega
      · rw [List.filter_cons_of_pos (by simpa using he), kB_cons, if_neg (c := id e.1 = key) he]
        omega

section Sums

/-- A number of the collector is the sum of the lines with its name, where the sum is
small. -/
theorem get_foldl_addEntry {g : MemLocals → Nat} {k : String}
    (hstep : ∀ l e, g (addEntry l e)
      = if e.1 = k then addUInt32 (g l) (toUInt32 (e.2 : Int)) else g l)
    (es : List (String × Nat)) (l : MemLocals) (h : g l + kB id k es < 0x80000000) :
    g (es.foldl addEntry l) = g l + kB id k es := by
  induction es generalizing l with
  | nil => rfl
  | cons e es ih =>
      rw [kB_cons] at h ⊢
      have hg : g (addEntry l e) = g l + if id e.1 = k then e.2 else 0 := by
        rw [hstep]
        by_cases he : e.1 = k
        · rw [if_pos he, if_pos (c := id e.1 = k) he]
          rw [if_pos (c := id e.1 = k) he] at h
          unfold addUInt32 toUInt32
          omega
        · rw [if_neg he, if_neg (c := id e.1 = k) he]
          rfl
      rw [List.foldl_cons, ih _ (by rw [hg]; omega), hg, Nat.add_assoc]

/-- A number of the script is the sum of the lines with its word. -/
theorem get_foldl_addWord {g : LuaMemLocals → ℚ} {k : String}
    (hstep : ∀ l e, g (addWord l e) = if word e.1 = k then g l + e.2 else g l)
    (es : List (String × Nat)) (l : LuaMemLocals) :
    g (es.foldl addWord l) = g l + kB word k es := by
  induction es generalizing l with
  | nil => simp [kB]
  | cons e es ih =>
      rw [List.foldl_cons, ih, hstep, kB_cons]
      split
      · push_cast
        rw [add_assoc]
      · rw [Nat.zero_add]

end Sums

/-! ### The samples -/

/-- The three sums of a pass are small. -/
structure MemPass.Small (p : MemPass) : Prop where
  total : kB id "Rss" p.shown < 0x80000000
  swap : kB id "Swap" p.shown < 0x80000000
  shared : kB id "Shared_Clean" p.shown < 0x80000000

/-- The two collectors publish a sample, with equal properties. -/
def SamplesAgree (v v' : Members) (p : MemPass) : Prop :=
  ∃ s s', ServMemCollector.collect v p.toPass = some s ∧ LuaMem.collect v' p.toPass = some s' ∧
    ∀ name ∈ ServMemCollector.properties, s.lookup name = s'.lookup name

section Samples
variable {p : MemPass}

/-- The sample of the collector. -/
theorem collect_eq (h : p.Small) (v : Members) :
    ∃ s, ServMemCollector.collect v p.toPass = some s ∧
      s.lookup "total" = some (kB id "Rss" p.shown : ℚ) ∧
      s.lookup "swap" = some (kB id "Swap" p.shown : ℚ) ∧
      s.lookup "shared" = some (kB id "Shared_Clean" p.shown : ℚ) := by
  have htotal := get_foldl_addEntry addEntry_total p.shown {} (by
    rw [Nat.zero_add]
    exact h.total)
  have hswap := get_foldl_addEntry addEntry_swap p.shown {} (by
    rw [Nat.zero_add]
    exact h.swap)
  have hshared := get_foldl_addEntry addEntry_shared p.shown {} (by
    rw [Nat.zero_add]
    exact h.shared)
  rw [Nat.zero_add] at htotal hswap hshared
  refine ⟨_, by
    show (p.pids.foldlM (ServMemCollector.readProcess p.toPass.files) {}).bind _ = _
    rw [p.foldlM_readProcess, Option.bind_some]
    rfl, ?_, ?_, ?_⟩
  · simp [MembersOf.lookup_setProperty, htotal]
  · simp [MembersOf.lookup_setProperty, hswap]
  · simp [MembersOf.lookup_setProperty, hshared]

/-- The sample of the script. -/
theorem collect_word_eq (p : MemPass) (v : Members) :
    ∃ s, LuaMem.collect v p.toPass = some s ∧
      s.lookup "total" = some (kB word "Rss" p.shown : ℚ) ∧
      s.lookup "swap" = some (kB word "Swap" p.shown : ℚ) ∧
      s.lookup "shared" = some 0 := by
  have htotal := get_foldl_addWord addWord_total p.shown {}
  have hswap := get_foldl_addWord addWord_swap p.shown {}
  have hshared : (p.shown.foldl addWord {}).shared = p.shown.foldl (fun x _ => x) 0 :=
    (List.foldl_hom LuaMemLocals.shared fun l e => (addWord_shared l e).symm).symm
  rw [List.foldl_fixed] at hshared
  rw [zero_add] at htotal hswap
  refine ⟨_, by
    show (p.pids.foldlM (LuaMem.readProcess p.toPass.files) {}).bind _ = _
    rw [p.foldlM_readProcess_word, Option.bind_some]
    rfl, ?_, ?_, ?_⟩
  · simp [MembersOf.lookup_setProperty, htotal]
  · simp [MembersOf.lookup_setProperty, hswap]
  · simp [MembersOf.lookup_setProperty, hshared]

/-- Equal samples are equal sums. -/
theorem samplesAgree_iff_kB (h : p.Small) (v v' : Members) : SamplesAgree v v' p ↔
    kB id "Rss" p.shown = kB word "Rss" p.shown ∧ kB id "Swap" p.shown = kB word "Swap" p.shown ∧
      kB id "Shared_Clean" p.shown = 0 := by
  obtain ⟨s, hs, htotal, hswap, hshared⟩ := collect_eq h v
  obtain ⟨s', hs', htotal', hswap', hshared'⟩ := collect_word_eq p v'
  have hlookups : (∀ name ∈ ServMemCollector.properties, s.lookup name = s'.lookup name) ↔
      s.lookup "total" = s'.lookup "total" ∧ s.lookup "swap" = s'.lookup "swap" ∧
        s.lookup "shared" = s'.lookup "shared" := by
    simp [ServMemCollector.properties]
  have hagree : SamplesAgree v v' p ↔
      ∀ name ∈ ServMemCollector.properties, s.lookup name = s'.lookup name := by
    constructor
    · rintro ⟨t, t', ht, ht', heq⟩
      obtain rfl : s = t := Option.some.inj (hs.symm.trans ht)
      obtain rfl : s' = t' := Option.some.inj (hs'.symm.trans ht')
      exact heq
    · exact fun heq => ⟨s, s', hs, hs', heq⟩
  rw [hagree, hlookups, htotal, htotal', hswap, hswap', hshared, hshared']
  simp

end Samples

/-- What the two collectors count alike: shared memory is none, and a line that starts like
one of the two names has that name. -/
structure CountsAlike (e : String × Nat) : Prop where
  shared : e.1 = "Shared_Clean" → e.2 = 0
  total : word e.1 = "Rss" → e.1 = "Rss" ∨ e.2 = 0
  swap : word e.1 = "Swap" → e.1 = "Swap" ∨ e.2 = 0

/-- Two sums are equal when the additional lines show 0. -/
theorem kB_eq_iff {key : String} (hkey : word key = key) (es : List (String × Nat)) :
    kB id key es = kB word key es ↔ ∀ e ∈ es, word e.1 = key → e.1 = key ∨ e.2 = 0 := by
  have hzero := kB_eq_zero_iff word key (es.filter (fun e => e.1 ≠ key))
  have hsum := kB_word key hkey es
  have hiff : kB id key es = kB word key es ↔
      kB word key (es.filter (fun e => e.1 ≠ key)) = 0 := by omega
  rw [hiff, hzero]
  constructor
  · intro h e he hword
    by_cases hname : e.1 = key
    · exact .inl hname
    · exact .inr (h e (List.mem_filter.mpr ⟨he, by simpa using hname⟩) hword)
  · intro h e he hword
    obtain ⟨hmem, hname⟩ := List.mem_filter.mp he
    exact (h e hmem hword).resolve_left (by simpa using hname)

/-- The samples agree exactly when every line counts alike. -/
theorem memSamples_agree_iff (p : MemPass) (h : p.Small) (v v' : Members) :
    SamplesAgree v v' p ↔ ∀ e ∈ p.shown, CountsAlike e := by
  rw [samplesAgree_iff_kB h, kB_eq_iff (by decide), kB_eq_iff (by decide), kB_eq_zero_iff]
  constructor
  · rintro ⟨htotal, hswap, hshared⟩ e he
    exact ⟨hshared e he, htotal e he, hswap e he⟩
  · intro halike
    exact ⟨fun e he => (halike e he).total, fun e he => (halike e he).swap,
      fun e he => (halike e he).shared⟩

/-- A process with one mapping, some of it in memory and some of it shared. -/
def libraryPass (rss shared : Nat) : MemPass where
  pids := [10]
  files := fun _ => some [
    .mapping ⟨0x7f0000000000, 0x7f0000010000, true, false, true, false, 0, 8, 1, 7,
      "                  /lib/libc.so.6", by decide⟩,
    .entry ⟨"Rss", 12, rss, by decide⟩,
    .entry ⟨"Shared_Clean", 3, shared, by decide⟩,
    .entry ⟨"Swap", 11, 0, by decide⟩]

/-- Without shared memory the samples agree. -/
theorem samplesAgree_private : SamplesAgree [] [] (libraryPass 64 0) := by
  have hsmall : (libraryPass 64 0).Small := ⟨by decide, by decide, by decide⟩
  refine (memSamples_agree_iff _ hsmall [] []).mpr fun e he => ?_
  have hshown : e = ("Rss", 64) ∨ e = ("Shared_Clean", 0) ∨ e = ("Swap", 0) := by
    simpa [libraryPass, MemPass.shown, SmapsLine.shows, eq_comm] using he
  rcases hshown with rfl | rfl | rfl
  · exact ⟨by decide, by decide, by decide⟩
  · exact ⟨by decide, by decide, by decide⟩
  · exact ⟨by decide, by decide, by decide⟩

/-- The script does not see the shared memory. -/
theorem not_samplesAgree_shared :
    ¬ ∀ (p : MemPass), p.Small → ∀ v v' : Members, SamplesAgree v v' p := by
  intro h
  have hsmall : (libraryPass 64 64).Small := ⟨by decide, by decide, by decide⟩
  have hsums := (samplesAgree_iff_kB hsmall [] []).mp (h _ hsmall [] [])
  exact absurd hsums.2.2 (by decide)

end WatchedAgent.Proofs.MemCollectors
