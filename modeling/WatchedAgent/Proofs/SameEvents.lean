import WatchedAgent.Model.SystemScripts

/-!
# `WatchedAgent.Proofs.SameEvents`: a plugin and its script

`cpuload` and `uptime` come as a plugin and as a script. The plugin cuts a line at its
blanks, and the script matches a pattern against the file.

* `LoadFile.collect_same` and `UptimeFile.collect_same`: on files as the kernel writes them,
  both do the same in every pass.
* `scripts_same`: so they do the same all their life.
-/

set_option autoImplicit false

namespace WatchedAgent.Proofs

open WatchedAgent.Lib
open WatchedAgent.Lib.Text
open WatchedAgent.Model
open WatchedAgent.Model.Collecting

namespace SameEvents

variable (real : Option ℚ → Json)

/-! ### Fractions -/

/-- The items of `%d+.%d+`. -/
def fraction : List Lua.Item := [⟨isDigit, .plus⟩, ⟨fun _ => true, .one⟩, ⟨isDigit, .plus⟩]

theorem isDigit_of_isSpace {c : Char} (h : isSpace c = true) : isDigit c = false := by
  simp only [isSpace, Bool.or_eq_true, beq_iff_eq] at h
  rcases h with ((((rfl | rfl) | rfl) | rfl) | rfl) | rfl <;> decide

/-- A number as `/proc` has it: a point with digits on both sides. -/
structure Fraction where
  whole : Nat
  frac : List Char
  digits : ∀ c ∈ frac, isDigit c = true
  nonempty : frac ≠ []

namespace Fraction

variable (f : Fraction)

/-- The characters of the number. -/
def chars : List Char := Nat.toDigits 10 f.whole ++ '.' :: f.frac

/-- The number itself. -/
def value : ℚ := decimalValue f.chars

theorem not_mem_of_isSpace {c : Char} (hc : isSpace c = true) : c ∉ f.chars := by
  have hdigit : isDigit c ≠ true := by simp [isDigit_of_isSpace hc]
  intro hmem
  rcases List.mem_append.mp hmem with hwhole | hrest
  · exact hdigit (isDigit_toDigits f.whole c hwhole)
  · rcases List.mem_cons.mp hrest with rfl | hfrac
    · exact absurd hc (by decide)
    · exact hdigit (f.digits c hfrac)

theorem tonumber_chars : tonumber (String.ofList f.chars) = some f.value := by
  have hchars : (String.ofList f.chars).toList = Nat.toDigits 10 f.whole ++ '.' :: f.frac :=
    String.toList_ofList
  rw [tonumber_of_digits hchars f.digits, String.toList_ofList]
  rfl

theorem stod_chars : stod (String.ofList f.chars) = some f.value := by
  have hchars : (String.ofList f.chars).toList = Nat.toDigits 10 f.whole ++ '.' :: f.frac :=
    String.toList_ofList
  rw [stod_of_digits hchars, String.toList_ofList]
  rfl

/-- `stod` skips a blank. -/
theorem stod_blank_chars : stod (String.ofList (' ' :: f.chars)) = some f.value := by
  rw [← f.stod_chars]
  unfold stod
  rw [String.toList_ofList, String.toList_ofList,
    List.dropWhile_cons_of_pos (show isSpace ' ' = true by decide)]

/-- `%d+.%d+` takes the whole number. -/
theorem first_chars {v : List Char} (hv : ∀ c ∈ v.head?, isDigit c = false) :
    Lua.First fraction (f.chars ++ v) (f.chars, v) := by
  have hfrac := Lua.First.plus (l := []) f.nonempty f.digits hv (Lua.first_nil v)
  have hpoint := Lua.First.one (p := fun _ => true) (c := '.') rfl hfrac
  have hwhole := Lua.First.plus Nat.toDigits_ne_nil (isDigit_toDigits f.whole) (by simp; decide)
    hpoint
  simpa [chars, fraction] using hwhole

end Fraction

/-! ### Uptime -/

/-- `/proc/uptime`: the uptime, a blank and the rest of the line. -/
structure UptimeFile where
  up : Fraction
  rest : List Char
  line : '\n' ∉ rest

namespace UptimeFile

variable (f : UptimeFile)

/-- The line. -/
def text : String := String.ofList (f.up.chars ++ ' ' :: f.rest)

theorem not_mem_text : '\n' ∉ f.text.toList := by
  have hup := f.up.not_mem_of_isSpace (c := '\n') (by decide)
  have hrest := f.line
  simp [text, hup, hrest]

/-- The text of the file. -/
def file : String := fileOf [f.text]

example : file ⟨⟨350, ['4', '2'], by decide, by decide⟩, ['7', '.', '1'], by decide⟩
    = "350.42 7.1\n" := by decide

theorem toList_file : f.file.toList = f.up.chars ++ ' ' :: (f.rest ++ ['\n']) := by
  simp [file, fileOf, text]

theorem luaMatch_file : (Lua.luaMatch "(%d+.%d+)" f.file).bind tonumber = some f.up.value := by
  have hfirst := f.up.first_chars (v := ' ' :: (f.rest ++ ['\n'])) (by simp; decide)
  have hcompile : Lua.compile "(%d+.%d+)" = ⟨[], fraction⟩ := rfl
  unfold Lua.luaMatch
  rw [hcompile, toList_file,
    Lua.matchIn_of_matchAt (Lua.matchAt_of_first (Lua.first_nil _) hfirst), Option.map_some,
    Option.bind_some]
  exact f.up.tonumber_chars

theorem substrN_text : substrN f.text 0 ((find f.text ' ' 0).getD f.text.length)
    = some (String.ofList f.up.chars) := by
  have hfind : find f.text ' ' 0 = some f.up.chars.length :=
    find_of_split String.toList_ofList (f.up.not_mem_of_isSpace (by decide))
  unfold substrN
  rw [hfind, if_pos (Nat.zero_le _)]
  simp [text]

/-- A pass of the script and one of the plugin. -/
theorem collect_same : Plugin.collect real (.lua uptimeScript) (uptimeCalls (some f.file))
    = Plugin.collect real .uptime (some f.file) := by
  have hlines : linesOf f.file = [f.text] := linesOf_fileOf (by simpa using f.not_mem_text)
  have hplugin : Plugin.collect real .uptime (some f.file)
      = [nextOf "uptime", setOrThrow real "uptime" "uptime" (some f.up.value)] := by
    show (linesOf f.file).flatMap (uptimeLine real) = _
    rw [hlines, List.flatMap_singleton]
    unfold uptimeLine
    rw [substrN_text, Option.bind_some, f.up.stod_chars]
  rw [hplugin]
  show (uptimeCalls (some f.file)).map (LuaCall.event real) = _
  unfold uptimeCalls setText
  dsimp only
  rw [luaMatch_file]
  rfl

end UptimeFile

/-! ### Load -/

/-- `/proc/loadavg`: three averages and the rest of the line, with a blank after each. -/
structure LoadFile where
  avg1 : Fraction
  avg5 : Fraction
  avg15 : Fraction
  rest : List Char
  line : '\n' ∉ rest

/-- What `substr` gives from a blank to the next one. -/
theorem field_of_split (line : String) (pre w post : List Char)
    (h : line.toList = pre ++ ' ' :: (w ++ ' ' :: post)) (hw : ' ' ∉ w) :
    find line ' ' (pre.length + 1) = some (pre.length + 1 + w.length) ∧
    substrN line pre.length (posSub (find line ' ' (pre.length + 1)) pre.length line.length)
      = some (String.ofList (' ' :: w)) := by
  have hdrop : line.toList.drop (pre.length + 1) = w ++ ' ' :: post := by
    rw [h, ← List.drop_drop, List.drop_left]
    rfl
  have hfind := find_of_drop hdrop hw
  refine ⟨hfind, ?_⟩
  have hlen : line.length = pre.length + (w.length + (post.length + 1) + 1) := by
    rw [← String.length_toList, h]
    simp
  have hsub : posSub (some (pre.length + 1 + w.length)) pre.length line.length
      = w.length + 1 := by
    show (if pre.length ≤ pre.length + 1 + w.length then _ else _) = _
    rw [if_pos (by omega)]
    omega
  rw [hfind, hsub]
  unfold substrN
  rw [if_pos (by omega), h, List.drop_left, List.take_succ_cons, List.take_left]

/-- The item between two averages. -/
def blank : List Lua.Item := [⟨(· == ' '), .one⟩]

namespace LoadFile

variable (f : LoadFile)

/-- The line. -/
def text : String := String.ofList (f.avg1.chars ++ ' ' :: (f.avg5.chars ++
  ' ' :: (f.avg15.chars ++ ' ' :: f.rest)))

theorem not_mem_text : '\n' ∉ f.text.toList := by
  have hfirst := f.avg1.not_mem_of_isSpace (c := '\n') (by decide)
  have hsecond := f.avg5.not_mem_of_isSpace (c := '\n') (by decide)
  have hthird := f.avg15.not_mem_of_isSpace (c := '\n') (by decide)
  have hrest := f.line
  simp [text, hfirst, hsecond, hthird, hrest]

/-- The text of the file. -/
def file : String := fileOf [f.text]

example : file ⟨⟨0, ['2', '0'], by decide, by decide⟩, ⟨1, ['1', '8'], by decide, by decide⟩,
    ⟨12, ['0', '5'], by decide, by decide⟩, "2/80 1120".toList, by decide⟩
    = "0.20 1.18 12.05 2/80 1120\n" := by decide

theorem toList_file : f.file.toList = f.avg1.chars ++ ' ' :: (f.avg5.chars ++
    ' ' :: (f.avg15.chars ++ ' ' :: (f.rest ++ ['\n']))) := by
  simp [file, fileOf, text]

theorem luaMatchGroups_file :
    Lua.luaMatchGroups "(%d+.%d+) (%d+.%d+) (%d+.%d+)" f.file
      = some [String.ofList f.avg1.chars, String.ofList f.avg5.chars,
          String.ofList f.avg15.chars] := by
  have hcompile : Lua.compileGroups "(%d+.%d+) (%d+.%d+) (%d+.%d+)"
      = [⟨[], fraction⟩, ⟨blank, fraction⟩, ⟨blank, fraction⟩] := rfl
  have hblank : ∀ cs : List Char, Lua.First blank (' ' :: cs) ([' '], cs) :=
    fun cs => Lua.First.one (by decide) (Lua.first_nil cs)
  have hdigit : ∀ cs : List Char, ∀ c ∈ (' ' :: cs).head?, isDigit c = false := by
    simp
    decide
  have hthird := Lua.FirstGroups.cons (p := ⟨blank, fraction⟩) (hblank _)
    (f.avg15.first_chars (hdigit (f.rest ++ ['\n']))) (Lua.firstGroups_nil _)
  have hsecond := Lua.FirstGroups.cons (p := ⟨blank, fraction⟩) (hblank _)
    (f.avg5.first_chars (hdigit _)) hthird
  have hfirst := Lua.FirstGroups.cons (p := ⟨[], fraction⟩) (Lua.first_nil _)
    (f.avg1.first_chars (hdigit _)) hsecond
  unfold Lua.luaMatchGroups
  rw [hcompile, toList_file, Lua.groupsIn_of_first hfirst]
  rfl

/-- What the plugin does with the line. -/
theorem cpuLoadLine_text : cpuLoadLine real f.text
    = [nextOf "avg", setOrThrow real "avg" "avg1" (some f.avg1.value),
      setOrThrow real "avg" "avg5" (some f.avg5.value),
      setOrThrow real "avg" "avg15" (some f.avg15.value)] := by
  have hfirst : find f.text ' ' 0 = some f.avg1.chars.length :=
    find_of_split String.toList_ofList (f.avg1.not_mem_of_isSpace (by decide))
  have hhead : substrN f.text 0 f.avg1.chars.length = some (String.ofList f.avg1.chars) := by
    unfold substrN
    rw [if_pos (Nat.zero_le _)]
    simp [text]
  obtain ⟨hsecond, hfive⟩ := field_of_split f.text f.avg1.chars f.avg5.chars
    (f.avg15.chars ++ ' ' :: f.rest) String.toList_ofList (f.avg5.not_mem_of_isSpace (by decide))
  obtain ⟨-, hfifteen⟩ := field_of_split f.text (f.avg1.chars ++ ' ' :: f.avg5.chars)
    f.avg15.chars f.rest (by simp [text]) (f.avg15.not_mem_of_isSpace (by decide))
  have hlen : (f.avg1.chars ++ ' ' :: f.avg5.chars).length
      = f.avg1.chars.length + 1 + f.avg5.chars.length := by
    simp
    omega
  rw [hlen] at hfifteen
  unfold cpuLoadLine
  simp only [hfirst, Option.getD_some, hhead, Option.bind_eq_bind, Option.bind_some, hfive,
    f.avg1.stod_chars, f.avg5.stod_blank_chars]
  simp only [hsecond, hfifteen, Option.bind_some, f.avg15.stod_blank_chars]

/-- A pass of the script and one of the plugin. -/
theorem collect_same : Plugin.collect real (.lua cpuLoadScript) (cpuLoadCalls (some f.file))
    = Plugin.collect real .cpuload (some f.file) := by
  have hlines : linesOf f.file = [f.text] := linesOf_fileOf (by simpa using f.not_mem_text)
  have hplugin : Plugin.collect real .cpuload (some f.file)
      = [nextOf "avg", setOrThrow real "avg" "avg1" (some f.avg1.value),
        setOrThrow real "avg" "avg5" (some f.avg5.value),
        setOrThrow real "avg" "avg15" (some f.avg15.value)] := by
    show (linesOf f.file).flatMap (cpuLoadLine real) = _
    rw [hlines, List.flatMap_singleton, cpuLoadLine_text]
  rw [hplugin]
  show (cpuLoadCalls (some f.file)).map (LuaCall.event real) = _
  unfold cpuLoadCalls
  dsimp only
  rw [luaMatchGroups_file]
  unfold setText
  simp only [Option.getD_some, List.getElem?_cons_zero, List.getElem?_cons_succ,
    Option.bind_some, Fraction.tonumber_chars]
  rfl

end LoadFile

/-- Collectors that do the same in the constructor and in each pass do the same all their
life. -/
theorem events_same {ι : Type} (p q : Plugin) (s : ι → p.Input) (t : ι → q.Input)
    (hconstruct : p.construct real = q.construct real)
    (hpass : ∀ i, p.collect real (s i) = q.collect real (t i)) (l : List ι) :
    p.events real (l.map s) = q.events real (l.map t) := by
  have hpasses : (l.map s).flatMap (fun f => Event.pass :: p.collect real f)
      = (l.map t).flatMap (fun f => Event.pass :: q.collect real f) := by
    rw [List.flatMap_map, List.flatMap_map]
    exact List.flatMap_congr fun i _ => congrArg (Event.pass :: ·) (hpass i)
  unfold Plugin.events
  rw [hconstruct, hpasses]

end SameEvents

open SameEvents

/-- Files as the kernel writes them, one for each pass: the script does all its life what the
plugin does, for the load and for the uptime. -/
theorem scripts_same (real : Option ℚ → Json) (loads : List LoadFile)
    (uptimes : List UptimeFile) :
    Plugin.events real (.lua cpuLoadScript) (loads.map fun f => cpuLoadCalls (some f.file))
      = Plugin.events real .cpuload (loads.map fun f => some f.file) ∧
    Plugin.events real (.lua uptimeScript) (uptimes.map fun f => uptimeCalls (some f.file))
      = Plugin.events real .uptime (uptimes.map fun f => some f.file) := by
  have hload := events_same real (.lua cpuLoadScript) .cpuload
    (fun f : LoadFile => cpuLoadCalls (some f.file)) (fun f => some f.file) rfl
    (LoadFile.collect_same real) loads
  have huptime := events_same real (.lua uptimeScript) .uptime
    (fun f : UptimeFile => uptimeCalls (some f.file)) (fun f => some f.file) rfl
    (UptimeFile.collect_same real) uptimes
  exact ⟨hload, huptime⟩

end WatchedAgent.Proofs
