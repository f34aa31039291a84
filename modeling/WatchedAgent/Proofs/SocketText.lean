import WatchedAgent.Lib.Numeral
import WatchedAgent.Model.SocketDetector

/-!
# `WatchedAgent.Proofs.SocketText`: a socket from its text

`getSource` prints a socket, and `socket(source)` reads the text back.
`getSource_ofSource` shows that the socket read has the same text, for every socket a
constructor can build (`Ranged`): its type has no colon, its address fields fit into 16
bits and its port into 32.

The text is a type, `://`, an address and, after the last colon, a port.
`ofSource_of_split` takes it apart there. The groups of an IPv6 address are read by
position, and `next_of_drop` follows the position from one group to the next.
-/

set_option autoImplicit false

namespace WatchedAgent.Proofs

open WatchedAgent.Lib
open WatchedAgent.Lib.Text
open WatchedAgent.Model
open WatchedAgent.Model.Socket

namespace SocketText

/-- The fields a constructor can give an address. -/
structure RangedAddr (a : SockAddr) : Prop where
  port : a.port < 0x100000000
  ip1 : a.ip1 < 0x10000
  ip2 : a.ip2 < 0x10000
  ip3 : a.ip3 < 0x10000
  ip4 : a.ip4 < 0x10000
  ip5 : a.ip5 < 0x10000
  ip6 : a.ip6 < 0x10000
  ip7 : a.ip7 < 0x10000
  ip8 : a.ip8 < 0x10000

/-- What a constructor can give a socket. -/
structure Ranged (s : Socket) : Prop where
  type : ':' ∉ s.type.toList
  source : RangedAddr s.source

/-! ### The parts of the text -/

/-- What the constructor does with the type, the address and the port of its text. -/
def ofParts (id : Nat) (type ip port : String) : Option Socket := do
  let port := strtoul 10 port % 0x100000000
  if isIPv4 type then
    let fields := decimalFields 4 ip.toList
    return {
      id, type
      source := {
        port
        ip1 := fields[0]?.getD 0
        ip2 := fields[1]?.getD 0
        ip3 := fields[2]?.getD 0
        ip4 := fields[3]?.getD 0 } }
  else
    let colon (p : Nat) : Option Nat := find ip ':' p
    let next (p : Nat) : Nat := posAdd (colon p) 1
    let p1 := next 0
    let p2 := next p1
    let p3 := next p2
    let p4 := next p3
    let p5 := next p4
    let p6 := next p5
    let p7 := next p6
    return {
      id, type
      source := {
        port
        ip1 := ← hexGroup ip 0 (colon 0)
        ip2 := ← hexGroup ip p1 (colon p1)
        ip3 := ← hexGroup ip p2 (colon p2)
        ip4 := ← hexGroup ip p3 (colon p3)
        ip5 := ← hexGroup ip p4 (colon p4)
        ip6 := ← hexGroup ip p5 (colon p5)
        ip7 := ← hexGroup ip p6 (colon p6)
        ip8 := ← hexGroup ip p7 none } }

/-- The text taken apart at its first and its last colon. -/
theorem ofSource_of_split (id : Nat) {text : String} {type ip port : List Char}
    (h : text.toList = type ++ ':' :: '/' :: '/' :: (ip ++ ':' :: port)) (htype : ':' ∉ type)
    (hport : ':' ∉ port) : ofSource id text
      = ofParts id (String.ofList type) (String.ofList ip) (String.ofList port) := by
  have hfind : find text ':' 0 = some type.length := find_of_split h htype
  have hsplit : text.toList = (type ++ ':' :: '/' :: '/' :: ip) ++ ':' :: port := by
    rw [h]
    simp
  have hrfind : rfind text ':' = some (type.length + 3 + ip.length) := by
    rw [rfind_of_split hsplit hport]
    simp
    omega
  have hlen : text.length = type.length + 3 + ip.length + 1 + port.length := by
    rw [← String.length_toList, h]
    simp
    omega
  have htypeText : substrN text 0 type.length = some (String.ofList type) := by
    unfold substrN
    rw [if_pos (Nat.zero_le _), List.drop_zero, h, List.take_left]
  have hportText : substr text (type.length + 3 + ip.length + 1) = some (String.ofList port) := by
    have hdrop : text.toList.drop (type.length + 3 + ip.length + 1) = port := by
      have hpos : type.length + 3 + ip.length + 1
          = (type ++ ':' :: '/' :: '/' :: ip ++ [':']).length := by
        simp
        omega
      have hpre : text.toList = (type ++ ':' :: '/' :: '/' :: ip ++ [':']) ++ port := by
        rw [h]
        simp
      rw [hpre, hpos, List.drop_left]
    unfold substr
    rw [if_pos (by omega), hdrop]
  have hipText : substrN text (type.length + 3)
      (posSub (some (type.length + 3 + ip.length)) (type.length + 3) text.length)
      = some (String.ofList ip) := by
    have hdrop : text.toList.drop (type.length + 3) = ip ++ ':' :: port := by
      have hpos : type.length + 3 = (type ++ [':', '/', '/']).length := by simp
      have hpre : text.toList = (type ++ [':', '/', '/']) ++ (ip ++ ':' :: port) := by
        rw [h]
        simp
      rw [hpre, hpos, List.drop_left]
    rw [posSub, if_pos (Nat.le_add_right _ _), Nat.add_sub_cancel_left, substrN,
      if_pos (by omega), hdrop, List.take_left]
  unfold ofSource ofParts
  simp only [hfind, hrfind, posAdd, Option.getD_some, htypeText, hportText, hipText,
    Option.bind_eq_bind, Option.bind_some]

/-! ### The groups of an IPv6 address -/

/-- The position after the next colon. -/
theorem next_of_drop {ip : String} {p : Nat} {group tail : List Char}
    (h : ip.toList.drop p = group ++ ':' :: tail) (hgroup : ':' ∉ group) :
    ip.toList.drop (posAdd (find ip ':' p) 1) = tail := by
  have hfind : find ip ':' p = some (group.length + p) := by
    unfold find
    rw [h, findIdx?_of_split hgroup]
    rfl
  have hpos : group.length + p + 1 = p + (group ++ [':']).length := by
    simp
    omega
  have hassoc : group ++ ':' :: tail = (group ++ [':']) ++ tail := by simp
  rw [hfind]
  show ip.toList.drop (group.length + p + 1) = tail
  rw [hpos, ← List.drop_drop, h, hassoc, List.drop_left]

/-- A printed group is read back, where the length takes all its digits in. -/
theorem hexGroup_of_drop {ip : String} {p n : Nat} {len : Option Nat} {rest : List Char}
    (h : ip.toList.drop p = Nat.toDigits 16 n ++ rest) (hrest : Ends 16 rest)
    (hlen : ∀ l ∈ len, (Nat.toDigits 16 n).length ≤ l) (hn : n < 0x10000) :
    hexGroup ip p len = some n := by
  have hle : p ≤ ip.length := by
    by_contra hlt
    have hnil : ip.toList.drop p = [] := by
      rw [List.drop_eq_nil_iff, String.length_toList]
      omega
    rw [hnil] at h
    simp at h
  have hdigits : (Nat.toDigits 16 n).length ≤ len.getD ip.length := by
    cases len with
    | some l => exact hlen l rfl
    | none =>
        -- Without a length the text goes to its end, and the digits are part of it.
        have hall := congrArg List.length h
        rw [List.length_drop, String.length_toList, List.length_append] at hall
        show (Nat.toDigits 16 n).length ≤ ip.length
        omega
  have htake : (Nat.toDigits 16 n ++ rest).take (len.getD ip.length) = Nat.toDigits 16 n
      ++ rest.take (len.getD ip.length - (Nat.toDigits 16 n).length) := by
    rw [List.take_append, List.take_of_length_le hdigits]
  have htext : substrN ip p (len.getD ip.length) = some (String.ofList (Nat.toDigits 16 n
      ++ rest.take (len.getD ip.length - (Nat.toDigits 16 n).length))) := by
    rw [substrN, if_pos hle, h, htake]
  rw [hexGroup, htext, Option.bind_eq_bind, Option.bind_some,
    strtoul_toDigits isBase_sixteen String.toList_ofList (hrest.take _) (by omega), toUInt16,
    Nat.mod_eq_of_lt hn]
  rfl

/-- The position of the next colon is no less than the length of the group before it. -/
theorem le_of_colon {ip : String} {p : Nat} {group tail : List Char}
    (h : ip.toList.drop p = group ++ ':' :: tail) (hgroup : ':' ∉ group) :
    ∀ l ∈ find ip ':' p, group.length ≤ l := by
  intro l hl
  rw [find, h, findIdx?_of_split hgroup] at hl
  obtain rfl : group.length + p = l := by simpa using hl
  omega

theorem colon_not_mem_hex (n : Nat) : ':' ∉ Nat.toDigits 16 n :=
  not_mem_toDigits isBase_sixteen (by decide)

theorem colon_not_mem_decimal (n : Nat) : ':' ∉ Nat.toDigits 10 n :=
  not_mem_toDigits isBase_ten (by decide)

theorem ends_nil (base : Nat) : Ends base [] := by simp [Ends]

theorem ends_colon {base : Nat} (hbase : IsBase base) (cs : List Char) :
    Ends base (':' :: cs) := by
  have hcolon : ∀ base < 17, digit? base ':' = none := by decide
  intro c hc
  obtain rfl : ':' = c := by simpa using hc
  exact ⟨hcolon base (Nat.lt_succ_of_le hbase.le), by decide, by decide⟩

/-- The port is read back. -/
theorem port_of_digits {n : Nat} (hn : n < 0x100000000) :
    strtoul 10 (String.ofList (Nat.toDigits 10 n)) % 0x100000000 = n := by
  have htext : (String.ofList (Nat.toDigits 10 n)).toList = Nat.toDigits 10 n ++ [] := by simp
  have hread := strtoul_toDigits isBase_ten htext (ends_nil 10) (by omega)
  rw [hread, Nat.mod_eq_of_lt hn]

/-! ### The printed address -/

/-- The address of `getSource`, without the type and the port. -/
def addressText (s : Socket) : List Char :=
  let a := s.source
  if isIPv4 s.type then
    Nat.toDigits 10 a.ip1 ++ '.' :: (Nat.toDigits 10 a.ip2 ++ '.' ::
      (Nat.toDigits 10 a.ip3 ++ '.' :: Nat.toDigits 10 a.ip4))
  else
    Nat.toDigits 16 a.ip1 ++ ':' :: (Nat.toDigits 16 a.ip2 ++ ':' ::
      (Nat.toDigits 16 a.ip3 ++ ':' :: (Nat.toDigits 16 a.ip4 ++ ':' ::
        (Nat.toDigits 16 a.ip5 ++ ':' :: (Nat.toDigits 16 a.ip6 ++ ':' ::
          (Nat.toDigits 16 a.ip7 ++ ':' :: Nat.toDigits 16 a.ip8))))))

theorem toList_hex (n : Nat) : (hex n).toList = Nat.toDigits 16 n := by
  rw [hex, String.toList_ofList]

/-- The text of a socket, in its parts. -/
theorem toList_getSource (s : Socket) : s.getSource.toList
    = s.type.toList ++ ':' :: '/' :: '/' ::
        (addressText s ++ ':' :: Nat.toDigits 10 s.source.port) := by
  unfold getSource addressText
  split
  · simp
  · simp [toList_hex]

/-- The fields of an IPv4 address are read back. -/
theorem decimalFields_address {a b c d : Nat} (ha : a < 0x10000) (hb : b < 0x10000)
    (hc : c < 0x10000) (hd : d < 0x10000) :
    decimalFields 4 (Nat.toDigits 10 a ++ '.' :: (Nat.toDigits 10 b ++ '.' ::
      (Nat.toDigits 10 c ++ '.' :: Nat.toDigits 10 d))) = [a, b, c, d] := by
  have hdot : ∀ cs : List Char, ∀ x ∈ ('.' :: cs).head?,
      isDigit x = false ∧ isSpace x = false := by
    intro cs x hx
    obtain rfl : '.' = x := by simpa using hx
    decide
  have hlast : decimalFields 1 (Nat.toDigits 10 d) = [d] := by
    have hnone : ∀ c ∈ ([] : List Char).head?, isDigit c = false ∧ isSpace c = false := by simp
    have hread := decimalFields_toDigits 0 d hnone
    rw [List.append_nil] at hread
    rw [hread, Nat.min_eq_left (by omega)]
    rfl
  rw [decimalFields_toDigits 3 a (hdot _), List.drop_one, List.tail_cons,
    decimalFields_toDigits 2 b (hdot _), List.drop_one, List.tail_cons,
    decimalFields_toDigits 1 c (hdot _), List.drop_one, List.tail_cons, hlast,
    Nat.min_eq_left (by omega), Nat.min_eq_left (by omega), Nat.min_eq_left (by omega)]

/-- What the constructor reads from the printed parts of an IPv4 socket. -/
theorem ofParts_of_isIPv4 (id : Nat) {s : Socket} (h : Ranged s) (htype : isIPv4 s.type = true) :
    ofParts id s.type (String.ofList (addressText s))
        (String.ofList (Nat.toDigits 10 s.source.port))
      = some {
          id, type := s.type
          source := {
            port := s.source.port, ip1 := s.source.ip1, ip2 := s.source.ip2
            ip3 := s.source.ip3, ip4 := s.source.ip4 } } := by
  have hfields := decimalFields_address h.source.ip1 h.source.ip2 h.source.ip3 h.source.ip4
  unfold ofParts addressText
  rw [port_of_digits h.source.port]
  dsimp only
  rw [if_pos htype, if_pos htype, String.toList_ofList, hfields]
  rfl

/-- What the constructor reads from the printed parts of an IPv6 socket. -/
theorem ofParts_of_not_isIPv4 (id : Nat) {s : Socket} (h : Ranged s)
    (htype : isIPv4 s.type = false) :
    ofParts id s.type (String.ofList (addressText s))
        (String.ofList (Nat.toDigits 10 s.source.port))
      = some { id, type := s.type, source := s.source } := by
  have hne : ¬ isIPv4 s.type = true := by simp [htype]
  have hends : ∀ cs, Ends 16 (':' :: cs) := fun cs => ends_colon isBase_sixteen cs
  have hcolon := colon_not_mem_hex
  unfold addressText
  dsimp only
  rw [if_neg hne]
  generalize hip : String.ofList _ = ip
  have htext := (congrArg String.toList hip.symm).trans String.toList_ofList
  have h1 := (List.drop_zero (l := ip.toList)).trans htext
  -- Each position is the one after the next colon.
  have h2 := next_of_drop h1 (hcolon _)
  have h3 := next_of_drop h2 (hcolon _)
  have h4 := next_of_drop h3 (hcolon _)
  have h5 := next_of_drop h4 (hcolon _)
  have h6 := next_of_drop h5 (hcolon _)
  have h7 := next_of_drop h6 (hcolon _)
  have h8 := next_of_drop h7 (hcolon _)
  rw [← List.append_nil (Nat.toDigits 16 s.source.ip8)] at h8
  unfold ofParts
  rw [port_of_digits h.source.port]
  dsimp only
  rw [if_neg hne, hexGroup_of_drop h1 (hends _) (le_of_colon h1 (hcolon _)) h.source.ip1,
    hexGroup_of_drop h2 (hends _) (le_of_colon h2 (hcolon _)) h.source.ip2,
    hexGroup_of_drop h3 (hends _) (le_of_colon h3 (hcolon _)) h.source.ip3,
    hexGroup_of_drop h4 (hends _) (le_of_colon h4 (hcolon _)) h.source.ip4,
    hexGroup_of_drop h5 (hends _) (le_of_colon h5 (hcolon _)) h.source.ip5,
    hexGroup_of_drop h6 (hends _) (le_of_colon h6 (hcolon _)) h.source.ip6,
    hexGroup_of_drop h7 (hends _) (le_of_colon h7 (hcolon _)) h.source.ip7,
    hexGroup_of_drop h8 (ends_nil 16) (by simp) h.source.ip8]
  rfl

/-- The printed address has no colon in its port, so the text splits there. -/
theorem ofSource_getSource (id : Nat) {s : Socket} (h : Ranged s) : ofSource id s.getSource
    = ofParts id s.type (String.ofList (addressText s))
        (String.ofList (Nat.toDigits 10 s.source.port)) := by
  have hsplit := ofSource_of_split id (toList_getSource s) h.type (colon_not_mem_decimal _)
  rwa [String.ofList_toList] at hsplit

/-- A printed socket is read back with the same text. -/
theorem getSource_ofSource (id : Nat) {s : Socket} (h : Ranged s) :
    ∃ s', ofSource id s.getSource = some s' ∧ s'.getSource = s.getSource := by
  cases htype : isIPv4 s.type with
  | true =>
      refine ⟨_, (ofSource_getSource id h).trans (ofParts_of_isIPv4 id h htype), ?_⟩
      unfold getSource
      dsimp only
      rw [if_pos htype, if_pos htype]
  | false =>
      exact ⟨_, (ofSource_getSource id h).trans (ofParts_of_not_isIPv4 id h htype), rfl⟩

/-! ### What the constructors give -/

theorem lt_of_hexAt {src : String} {positions : List Nat} {n : Nat}
    (h : hexAt src positions = some n) : n < 0x10000 := by
  obtain ⟨parts, -, hn⟩ := Option.bind_eq_some_iff.mp h
  obtain rfl := Option.some.inj hn
  exact Nat.mod_lt _ (by decide)

theorem lt_of_hexPort {src : String} {n : Nat} (h : hexPort src = some n) : n < 0x100000000 := by
  obtain ⟨port, -, hn⟩ := Option.bind_eq_some_iff.mp h
  obtain rfl := Option.some.inj hn
  exact Nat.mod_lt _ (by decide)

theorem lt_of_hexGroup {ip : String} {start n : Nat} {len : Option Nat}
    (h : hexGroup ip start len = some n) : n < 0x10000 := by
  obtain ⟨rest, -, hn⟩ := Option.bind_eq_some_iff.mp h
  obtain rfl := Option.some.inj hn
  exact Nat.mod_lt _ (by decide)

theorem ranged_setSockFrom {src : String} {a : SockAddr} (h : setSockFrom src = some a) :
    RangedAddr a := by
  simp only [setSockFrom, Option.bind_eq_bind, Option.bind_eq_some_iff, Option.pure_def,
    Option.some.injEq] at h
  obtain ⟨port, hport, ip4, h4, ip3, h3, ip2, h2, ip1, h1, rfl⟩ := h
  constructor
  · exact lt_of_hexPort hport
  · exact lt_of_hexAt h1
  · exact lt_of_hexAt h2
  · exact lt_of_hexAt h3
  · exact lt_of_hexAt h4
  all_goals exact Nat.zero_lt_succ _

theorem ranged_setSockFrom6 {src : String} {a : SockAddr} (h : setSockFrom6 src = some a) :
    RangedAddr a := by
  simp only [setSockFrom6, Option.bind_eq_bind, Option.bind_eq_some_iff, Option.pure_def,
    Option.some.injEq] at h
  obtain ⟨port, hport, ip2, h2, ip1, h1, ip4, h4, ip3, h3, ip6, h6, ip5, h5, ip8, h8, ip7, h7,
    rfl⟩ := h
  exact {
    port := lt_of_hexPort hport
    ip1 := lt_of_hexAt h1
    ip2 := lt_of_hexAt h2
    ip3 := lt_of_hexAt h3
    ip4 := lt_of_hexAt h4
    ip5 := lt_of_hexAt h5
    ip6 := lt_of_hexAt h6
    ip7 := lt_of_hexAt h7
    ip8 := lt_of_hexAt h8 }

/-- A socket of a line of `/proc/net`. -/
theorem ranged_ofLine {line type : String} {s : Socket} (h : ofLine line type = some s)
    (htype : ':' ∉ type.toList) : Ranged s := by
  simp only [ofLine, Option.bind_eq_bind, Option.bind_eq_some_iff, Option.pure_def,
    Option.some.injEq] at h
  obtain ⟨word, _, source, hsource, _, _, _, _, _, _, rfl⟩ := h
  refine ⟨htype, ?_⟩
  split at hsource
  · exact ranged_setSockFrom hsource
  · exact ranged_setSockFrom6 hsource

/-- The fields read from an IPv4 address. -/
theorem decimalFields_lt (k : Nat) (cs : List Char) :
    ∀ n ∈ decimalFields k cs, n < 0x10000 := by
  induction k generalizing cs with
  | zero => simp [decimalFields]
  | succ k ih =>
      intro n hn
      unfold decimalFields at hn
      dsimp only at hn
      split at hn
      · simp at hn
      · rcases List.mem_cons.mp hn with rfl | hn
        · exact Nat.lt_succ_of_le (Nat.min_le_right _ _)
        · exact ih _ n hn

theorem getElem?_decimalFields_lt (k i : Nat) (cs : List Char) :
    (decimalFields k cs)[i]?.getD 0 < 0x10000 := by
  cases hi : (decimalFields k cs)[i]? with
  | none => decide
  | some n => exact decimalFields_lt k cs n (List.mem_of_getElem? hi)

/-- The text before the first colon has none. -/
theorem colon_not_mem_type (text : String) :
    ':' ∉ ((substrN text 0 ((find text ':' 0).getD text.length)).getD "").toList := by
  have htake : substrN text 0 ((find text ':' 0).getD text.length)
      = some (String.ofList (text.toList.take ((find text ':' 0).getD text.length))) := by
    unfold substrN
    rw [if_pos (Nat.zero_le _), List.drop_zero]
  rw [htake, Option.getD_some, String.toList_ofList]
  by_cases hcolon : ':' ∈ text.toList
  · obtain ⟨pre, post, htext, hpre⟩ := List.eq_append_cons_of_mem hcolon
    rw [find_of_split htext hpre, Option.getD_some, htext, List.take_left]
    exact hpre
  · exact fun hmem => hcolon (List.mem_of_mem_take hmem)

/-- A socket read from a text. -/
theorem ranged_ofSource {id : Nat} {text : String} {s : Socket} (h : ofSource id text = some s) :
    Ranged s := by
  have htype := colon_not_mem_type text
  have hport : ∀ port : String, strtoul 10 port % 0x100000000 < 0x100000000 :=
    fun port => Nat.mod_lt _ (by decide)
  unfold ofSource at h
  obtain ⟨port, -, h⟩ := Option.bind_eq_some_iff.mp h
  obtain ⟨ip, -, h⟩ := Option.bind_eq_some_iff.mp h
  split at h
  · obtain rfl := Option.some.inj h
    refine ⟨htype, ?_⟩
    constructor
    · exact hport port
    · exact getElem?_decimalFields_lt 4 0 _
    · exact getElem?_decimalFields_lt 4 1 _
    · exact getElem?_decimalFields_lt 4 2 _
    · exact getElem?_decimalFields_lt 4 3 _
    all_goals exact Nat.zero_lt_succ _
  · simp only [Option.bind_eq_bind, Option.bind_eq_some_iff, Option.pure_def,
      Option.some.injEq] at h
    obtain ⟨ip1, h1, ip2, h2, ip3, h3, ip4, h4, ip5, h5, ip6, h6, ip7, h7, ip8, h8, rfl⟩ := h
    refine ⟨htype, ?_⟩
    exact {
      port := hport port
      ip1 := lt_of_hexGroup h1
      ip2 := lt_of_hexGroup h2
      ip3 := lt_of_hexGroup h3
      ip4 := lt_of_hexGroup h4
      ip5 := lt_of_hexGroup h5
      ip6 := lt_of_hexGroup h6
      ip7 := lt_of_hexGroup h7
      ip8 := lt_of_hexGroup h8 }

end SocketText

end WatchedAgent.Proofs
