import WatchedAgent.Lib.Fallible
import WatchedAgent.Proofs.Addresses

/-!
# `WatchedAgent.Proofs.Loopback`: the loopback rule of the socket detector

With an entry for the loopback interface in the black list, the scan drops the sockets for
which `isLoopBack` holds. That function knows `127.0.0.0/24` and `::1`, and the loopback
addresses are `127.0.0.0/8`, `::1` and the IPv4 loopback addresses mapped into IPv6.

* `loopback_addr4`, `loopback_addr6`: the predicates in the bytes of the address.
* `scan_eq`: the scan keeps the sockets in the listening state, but those of `isLoopBack`.
* `scan_exact_iff`: it keeps exactly those without a loopback address, if and only if no
  socket in the listening state is bound to a loopback address that `isLoopBack` misses.
-/

set_option autoImplicit false

namespace WatchedAgent.Proofs

open WatchedAgent.Lib
open WatchedAgent.Lib.Text
open WatchedAgent.Model
open WatchedAgent.Model.Socket

namespace Loopback

open Addresses

/-! ### Loopback addresses -/

/-- A socket bound to `127.0.0.0/8`, to `::1` or to `::ffff:127.0.0.0/104`. -/
def isBoundToLoopback (s : Socket) : Bool :=
  let a := s.source
  if isIPv4 s.type then a.ip1 == 127
  else
    a.ip1 == 0 && a.ip2 == 0 && a.ip3 == 0 && a.ip4 == 0 && a.ip5 == 0 &&
      ((a.ip6 == 0 && a.ip7 == 0 && a.ip8 == 1) || (a.ip6 == 0xffff && a.ip7 / 256 == 127))

/-- A loopback address outside `127.0.0.0/24` and `::1`: one of `127.0.0.0/8` with a second
or third octet other than 0, or one mapped into IPv6. -/
def isMissed (s : Socket) : Bool :=
  let a := s.source
  if isIPv4 s.type then a.ip1 == 127 && (a.ip2 != 0 || a.ip3 != 0)
  else
    a.ip1 == 0 && a.ip2 == 0 && a.ip3 == 0 && a.ip4 == 0 && a.ip5 == 0 && a.ip6 == 0xffff &&
      a.ip7 / 256 == 127

/-- `isLoopBack` knows the loopback addresses, but those it misses. -/
theorem isLoopBack_eq (s : Socket) :
    s.isLoopBack = (isBoundToLoopback s && !isMissed s) := by
  rw [isLoopBack, isBoundToLoopback, isMissed]
  cases htype : isIPv4 s.type with
  | true => grind
  | false => grind

/-- What it misses is a loopback address. -/
theorem isBoundToLoopback_of_isMissed {s : Socket} (h : isMissed s = true) :
    isBoundToLoopback s = true := by
  rw [isMissed] at h
  rw [isBoundToLoopback]
  cases htype : isIPv4 s.type with
  | true => grind
  | false => grind

/-- The predicate agrees with the addresses exactly outside the missed ones. -/
theorem isLoopBack_eq_iff (s : Socket) :
    s.isLoopBack = isBoundToLoopback s ↔ isMissed s = false := by
  rw [isLoopBack_eq]
  cases hmissed : isMissed s with
  | true => simp [isBoundToLoopback_of_isMissed hmissed]
  | false => simp

/-- On an IPv4 address, in its bytes. -/
theorem loopback_addr4 {line type : String} {w : Word} {port : UInt16} {s : Socket}
    (h : Bound line type [w] port s) (htype : isIPv4 type = true) :
    isBoundToLoopback s = true ↔ w.b1 = 127 := by
  obtain ⟨v, hv, hsource⟩ := h.source_eq_addr4 htype
  obtain rfl : w = v := by simpa using hv
  rw [isBoundToLoopback, h.decoded.1, if_pos htype, hsource]
  show (w.b1.toNat == (127 : UInt8).toNat) = true ↔ _
  rw [beq_iff_eq, UInt8.toNat_inj]

/-- On an IPv6 address, in its bytes. -/
theorem loopback_addr6 {line type : String} {w1 w2 w3 w4 : Word} {port : UInt16} {s : Socket}
    (h : Bound line type [w1, w2, w3, w4] port s) (htype : isIPv4 type = false) :
    isBoundToLoopback s = true ↔ w1 = ⟨0, 0, 0, 0⟩ ∧ w2 = ⟨0, 0, 0, 0⟩ ∧
      ((w3 = ⟨0, 0, 0, 0⟩ ∧ w4 = ⟨0, 0, 0, 1⟩) ∨ (w3 = ⟨0, 0, 255, 255⟩ ∧ w4.b1 = 127)) := by
  obtain ⟨v1, v2, v3, v4, hv, hsource⟩ := h.source_eq_addr6 htype
  simp only [List.cons.injEq, and_true] at hv
  obtain ⟨rfl, rfl, rfl, rfl⟩ := hv
  have hne : ¬ isIPv4 type = true := by simp [htype]
  -- A group is a pair of bytes.
  have hgroup : ∀ {a b : UInt8} (c d : UInt8), group a b = group c d ↔ a = c ∧ b = d := by
    intro a b c d
    constructor
    · intro hab
      exact ⟨UInt8.toNat_inj.mp (group_inj hab).1, UInt8.toNat_inj.mp (group_inj hab).2⟩
    · rintro ⟨rfl, rfl⟩
      rfl
  have hhigh : ∀ a b : UInt8, group a b / 256 = a.toNat := by
    intro a b
    have hb := b.toNat_lt_size
    simp only [UInt8.size] at hb
    rw [group]
    omega
  have hzero : ∀ a b : UInt8, group a b = 0 ↔ a = 0 ∧ b = 0 := fun a b => hgroup 0 0
  have hone : ∀ a b : UInt8, group a b = 1 ↔ a = 0 ∧ b = 1 := fun a b => hgroup 0 1
  have hmapped : ∀ a b : UInt8, group a b = 0xffff ↔ a = 255 ∧ b = 255 :=
    fun a b => hgroup 255 255
  have hfirst : ∀ a : UInt8, a.toNat = 127 ↔ a = 127 := fun a => UInt8.toNat_inj (b := 127)
  rw [isBoundToLoopback, h.decoded.1, if_neg hne, hsource]
  simp only [addr6, Bool.and_eq_true, Bool.or_eq_true, beq_iff_eq, hzero, hone, hmapped, hhigh,
    hfirst, and_assoc]
  obtain ⟨⟩ := w1
  obtain ⟨⟩ := w2
  obtain ⟨⟩ := w3
  obtain ⟨⟩ := w4
  simp only [Word.mk.injEq, and_assoc]
  -- Both cases of the last two words leave the first two bytes of the third zero.
  simp only [and_or_left]

/-! ### The scan -/

/-- The word in the fourth column for a listening socket of a file. -/
def listeningState (type : String) : String :=
  if "tcp".toList.isPrefixOf type.toList then "0A" else "07"

/-- The socket of a line in the listening state of its protocol. -/
def listeningSocket (type line : String) : Option Socket :=
  if (tokens line)[3]? = some (listeningState type) then ofLine line type else none

/-- The sockets in the listening state, file by file and line by line. -/
def listening (os : OsState) : List Socket :=
  SocketDetector.files.flatMap (fun type => (os.net type).filterMap (listeningSocket type))

/-- A line the scan can read: it has a state, and where the state is the listening one, the
words of a socket. -/
def Readable (type line : String) : Prop :=
  (tokens line)[3]?.isSome = true ∧
    ((tokens line)[3]? = some (listeningState type) → (ofLine line type).isSome = true)

/-- Does the scan drop loopback sockets? -/
def ignoresLoopback (env : Env) : Bool :=
  env.socketBlackList.any (fun rule => rule.interface == some "loopback")

/-- The two tests of the scan are one, as each file is of one protocol. -/
theorem scanLine_of_state {type line state : String} (htype : type ∈ SocketDetector.files)
    (ignore : Bool) (hstate : (tokens line)[3]? = some state) :
    SocketDetector.scanLine ignore type line = if state = listeningState type then
        (ofLine line type).map (fun s => if ignore && s.isLoopBack then none else some s)
      else some none := by
  have hproto : ∀ type ∈ SocketDetector.files,
      ("tcp".toList.isPrefixOf type.toList = true ∧ "udp".toList.isPrefixOf type.toList = false) ∨
      ("tcp".toList.isPrefixOf type.toList = false ∧ "udp".toList.isPrefixOf type.toList = true) := by
    decide
  rw [SocketDetector.scanLine, hstate, Option.bind_eq_bind, Option.bind_some]
  rcases hproto type htype with ⟨htcp, hudp⟩ | ⟨htcp, hudp⟩
  · have hstate : listeningState type = "0A" := by rw [listeningState, if_pos htcp]
    rw [hstate, htcp, hudp]
    by_cases hlisten : state = "0A"
    · subst hlisten
      cases ofLine line type <;> simp [apply_ite some]
    · simp [hlisten]
  · have hstate : listeningState type = "07" := by
      rw [listeningState, htcp]
      rfl
    rw [hstate, htcp, hudp]
    by_cases hlisten : state = "07"
    · subst hlisten
      cases ofLine line type <;> simp [apply_ite some]
    · simp [hlisten]

/-- A line is kept where it is readable, in the listening state, and not dropped. -/
theorem scanLine_eq {type : String} (htype : type ∈ SocketDetector.files) (ignore : Bool)
    {line : String} (h : Readable type line) : SocketDetector.scanLine ignore type line
      = some ((listeningSocket type line).filter (fun s => !(ignore && s.isLoopBack))) := by
  obtain ⟨hstate, hread⟩ := h
  obtain ⟨state, hstate⟩ := Option.isSome_iff_exists.mp hstate
  rw [hstate, Option.some.injEq] at hread
  rw [scanLine_of_state htype ignore hstate, listeningSocket, hstate]
  by_cases hlisten : state = listeningState type
  · obtain ⟨s, hs⟩ := Option.isSome_iff_exists.mp (hread hlisten)
    rw [if_pos hlisten, if_pos (congrArg some hlisten), hs, Option.map_some, Option.filter_some]
    cases ignore && s.isLoopBack <;> rfl
  · rw [if_neg hlisten, if_neg (fun h => hlisten (Option.some.inj h))]
    rfl

/-- A line that is not readable ends the scan. -/
theorem scanLine_eq_none {type : String} (htype : type ∈ SocketDetector.files) (ignore : Bool)
    {line : String} (h : ¬ Readable type line) :
    SocketDetector.scanLine ignore type line = none := by
  cases hstate : (tokens line)[3]? with
  | none => rw [SocketDetector.scanLine, hstate]; rfl
  | some state =>
      rw [Readable, hstate, Option.some.injEq] at h
      rw [scanLine_of_state htype ignore hstate]
      by_cases hlisten : state = listeningState type
      · have hnone : ofLine line type = none := by
          rw [← Option.not_isSome_iff_eq_none]
          exact fun hs => h ⟨rfl, fun _ => hs⟩
        rw [if_pos hlisten, hnone]
        rfl
      · exact absurd ⟨rfl, fun heq => absurd heq hlisten⟩ h

/-- The scan of readable files keeps the sockets in the listening state, and drops those of
`isLoopBack` where it is told to. -/
theorem scan_eq (env : Env) (os : OsState)
    (h : ∀ type ∈ SocketDetector.files, ∀ line ∈ os.net type, Readable type line) :
    SocketDetector.scan env os
      = some ((listening os).filter (fun s => !(ignoresLoopback env && s.isLoopBack))) := by
  have hfile : ∀ type ∈ SocketDetector.files,
      (os.net type).mapM (SocketDetector.scanLine (ignoresLoopback env) type)
        = some ((os.net type).map fun line => (listeningSocket type line).filter
            (fun s => !(ignoresLoopback env && s.isLoopBack))) :=
    fun type htype => Fallible.mapM_of_forall _ fun line hline =>
      scanLine_eq htype (ignoresLoopback env) (h type htype line hline)
  have hfiles := Fallible.mapM_of_forall SocketDetector.files hfile
  rw [SocketDetector.scan]
  show (SocketDetector.files.mapM fun type =>
    (os.net type).mapM (SocketDetector.scanLine (ignoresLoopback env) type)) >>= _ = _
  rw [hfiles, Option.bind_eq_bind, Option.bind_some, listening, List.filter_flatMap]
  show some _ = some _
  rw [List.map_map, ← List.flatMap_def]
  congr 1
  refine List.flatMap_congr fun type _ => ?_
  rw [List.filter_filterMap, Function.comp_apply, List.filterMap_map]
  rfl

/-- A file with a line that is not readable ends the scan. -/
theorem scan_eq_none (env : Env) (os : OsState) {type line : String}
    (htype : type ∈ SocketDetector.files) (hline : line ∈ os.net type)
    (h : ¬ Readable type line) : SocketDetector.scan env os = none := by
  have hfile : (os.net type).mapM (SocketDetector.scanLine (ignoresLoopback env) type) = none :=
    Fallible.mapM_of_mem hline (scanLine_eq_none htype _ h)
  rw [SocketDetector.scan]
  show (SocketDetector.files.mapM fun type =>
    (os.net type).mapM (SocketDetector.scanLine (ignoresLoopback env) type)) >>= _ = _
  rw [Fallible.mapM_of_mem htype hfile]
  rfl

/-- Two filters agree exactly when their tests agree on the elements. -/
theorem filter_eq_filter_iff {α : Type} (p q : α → Bool) (l : List α) :
    l.filter p = l.filter q ↔ ∀ a ∈ l, p a = q a := by
  constructor
  · intro h a ha
    have hmem : a ∈ l.filter p ↔ a ∈ l.filter q := by rw [h]
    rw [List.mem_filter, List.mem_filter, and_iff_right ha, and_iff_right ha] at hmem
    exact Bool.eq_iff_iff.mpr hmem
  · exact List.filter_congr

/-- The scan keeps exactly the sockets in the listening state that are not bound to a
loopback address. -/
def FiltersLoopback (env : Env) (os : OsState) : Prop :=
  SocketDetector.scan env os = some ((listening os).filter (fun s => !isBoundToLoopback s))

/-- With the loopback rule, the scan drops exactly the sockets on loopback addresses, if and
only if every line is readable and no socket in the listening state is on `127.x.y.z` with
`x` or `y` other than 0, or on an IPv4 loopback address mapped into IPv6. -/
theorem scan_exact_iff (env : Env) (os : OsState)
    (hrule : ∃ rule ∈ env.socketBlackList, rule.interface = some "loopback") :
    FiltersLoopback env os ↔
      (∀ type ∈ SocketDetector.files, ∀ line ∈ os.net type, Readable type line) ∧
        ∀ s ∈ listening os, isMissed s = false := by
  have hignore : ignoresLoopback env = true := by
    obtain ⟨rule, hmem, heq⟩ := hrule
    exact List.any_eq_true.mpr ⟨rule, hmem, by simp [heq]⟩
  by_cases hread : ∀ type ∈ SocketDetector.files, ∀ line ∈ os.net type, Readable type line
  · rw [FiltersLoopback, scan_eq env os hread, Option.some.injEq, filter_eq_filter_iff, hignore]
    rw [and_iff_right hread]
    refine forall₂_congr fun s _ => ?_
    rw [← isLoopBack_eq_iff, Bool.true_and]
    exact Bool.not_inj_iff
  · refine iff_of_false ?_ (fun h => hread h.1)
    obtain ⟨type, htype, line, hline, hnot⟩ := by simpa only [not_forall] using hread
    rw [FiltersLoopback, scan_eq_none env os htype hline hnot]
    simp

/-- The agent with the default black list of the socket detector. -/
def defaultEnv : Env where
  socketBlackList := SocketDetector.defaultBlackList

/-- A listing of one TCP socket, on port 22 of the address with the given token. -/
def tcpOs (token : String) : OsState where
  net := fun type =>
    if type = "tcp" then
      ["sl local_address rem_address st",
        "0: " ++ token ++ " 00000000:0000 0A 00000000:00000000 00:00000000 00000000 0 0 123"]
    else []

/-- A socket on `127.0.0.1` is dropped. -/
theorem scan_exact_localhost : FiltersLoopback defaultEnv (tcpOs "0100007F:0016") := by
  refine (scan_exact_iff defaultEnv _ ⟨_, List.mem_cons_self, rfl⟩).mpr ⟨?_, by decide⟩
  unfold Readable
  decide

/-- A socket on `127.0.1.1`, the address that many distributions give the host name, is
kept. -/
theorem not_scan_exact_hostname : ¬ FiltersLoopback defaultEnv (tcpOs "0101007F:0016") := by
  rw [FiltersLoopback]
  decide

end Loopback

end WatchedAgent.Proofs
