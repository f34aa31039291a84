import WatchedAgent.Model.Os

/-!
# `WatchedAgent.Model.Socket`: sockets and their text

`socket` of `include/services.h`. A socket is built from a line of `/proc/net`, or from the
text `getSource` gave for one (the form a service configuration file holds). A constructor
that throws `out_of_range` is `none` here.
-/

set_option autoImplicit false

namespace WatchedAgent.Model

open WatchedAgent.Lib

/-- `struct sock_addr`. -/
structure SockAddr where
  port : Nat := 0
  ip1 : Nat := 0
  ip2 : Nat := 0
  ip3 : Nat := 0
  ip4 : Nat := 0
  ip5 : Nat := 0
  ip6 : Nat := 0
  ip7 : Nat := 0
  ip8 : Nat := 0
  deriving DecidableEq

/-- `class socket`. -/
structure Socket where
  id : Nat
  type : String
  source : SockAddr
  dest : SockAddr := {}
  deriving DecidableEq

namespace Socket

/-- `type == "tcp" || type == "udp"`. -/
def isIPv4 (type : String) : Bool := type == "tcp" || type == "udp"

/-- The number two or four hexadecimal characters of `src` spell: the substrings at the
given positions, one after the other. -/
def hexAt (src : String) (positions : List Nat) : Option Nat := do
  let parts ← positions.mapM (fun pos => Text.substrN src pos 2)
  return Text.toUInt16 (Text.strtoul 16 (String.join parts))

/-- `src.substr(src.find(":")+1)` read as a hexadecimal number. -/
def hexPort (src : String) : Option Nat := do
  let port ← Text.substrN src (Text.posAdd (Text.find src ':' 0) 1) src.length
  return Text.strtoul 16 port % 0x100000000

/-- `socket::setSockFrom`. The fields `ip5` to `ip8` stay unset, and nothing reads them. -/
def setSockFrom (src : String) : Option SockAddr := do
  return {
    port := ← hexPort src
    ip4 := ← hexAt src [0]
    ip3 := ← hexAt src [2]
    ip2 := ← hexAt src [4]
    ip1 := ← hexAt src [6] }

/-- `socket::setSockFrom6`. -/
def setSockFrom6 (src : String) : Option SockAddr := do
  return {
    port := ← hexPort src
    ip2 := ← hexAt src [2, 0]
    ip1 := ← hexAt src [6, 4]
    ip4 := ← hexAt src [10, 8]
    ip3 := ← hexAt src [14, 12]
    ip6 := ← hexAt src [18, 16]
    ip5 := ← hexAt src [22, 20]
    ip8 := ← hexAt src [26, 24]
    ip7 := ← hexAt src [30, 28] }

/-- `socket::socket(line, type)`. A line with too few words is undefined in the source and
`none` here. -/
def ofLine (line type : String) : Option Socket := do
  let words := Text.tokens line
  let addr := if isIPv4 type then setSockFrom else setSockFrom6
  return {
    source := ← addr (← words[1]?)
    dest := ← addr (← words[2]?)
    id := Text.toUInt32 (Text.atoi (← words[9]?))
    type }

/-- A group of an IPv6 text, `ip.substr(start, len)` read as a hexadecimal number. The
source passes the position of the next colon as the length, and none where there is no
such colon or for the last group. -/
def hexGroup (ip : String) (start : Nat) (len : Option Nat) : Option Nat := do
  let rest ← Text.substrN ip start (len.getD ip.length)
  return Text.toUInt16 (Text.strtoul 16 rest)

/-- `socket::socket(source)`. The constructor leaves `id` unset, so its value is an
argument. -/
def ofSource (id : Nat) (text : String) : Option Socket := do
  let type := (Text.substrN text 0 ((Text.find text ':' 0).getD text.length)).getD ""
  -- The address starts after `://`, and ends before the last colon.
  let pos := Text.posAdd (Text.find text ':' 0) 3
  let port ← Text.substr text (Text.posAdd (Text.rfind text ':') 1)
  let port := Text.strtoul 10 port % 0x100000000
  let ip ← Text.substrN text pos (Text.posSub (Text.rfind text ':') pos text.length)
  if isIPv4 type then
    let fields := Text.decimalFields 4 ip.toList
    return {
      id, type
      source := {
        port
        ip1 := fields[0]?.getD 0
        ip2 := fields[1]?.getD 0
        ip3 := fields[2]?.getD 0
        ip4 := fields[3]?.getD 0 } }
  else
    let colon (p : Nat) : Option Nat := Text.find ip ':' p
    let next (p : Nat) : Nat := Text.posAdd (colon p) 1
    let p1 := next 0
    let p2 := next p1
    let p3 := next p2
    let p4 := next p3
    let p5 := next p4
    let p6 := next p5
    let p7 := next p6
    return {
      id, type
      source := {
        port
        ip1 := ← hexGroup ip 0 (colon 0)
        ip2 := ← hexGroup ip p1 (colon p1)
        ip3 := ← hexGroup ip p2 (colon p2)
        ip4 := ← hexGroup ip p3 (colon p3)
        ip5 := ← hexGroup ip p4 (colon p4)
        ip6 := ← hexGroup ip p5 (colon p5)
        ip7 := ← hexGroup ip p6 (colon p6)
        ip8 := ← hexGroup ip p7 none } }

/-- `socket::isLoopBack`. -/
def isLoopBack (s : Socket) : Bool :=
  if isIPv4 s.type then s.source.ip1 == 127 && s.source.ip2 == 0 && s.source.ip3 == 0
  else s.source.ip1 == 0 && s.source.ip2 == 0 && s.source.ip3 == 0 && s.source.ip4 == 0 &&
    s.source.ip5 == 0 && s.source.ip6 == 0 && s.source.ip7 == 0 && s.source.ip8 == 1

/-- `socket::getSource`. -/
def getSource (s : Socket) : String :=
  let a := s.source
  if isIPv4 s.type then
    s.type ++ "://" ++ toString a.ip1 ++ "." ++ toString a.ip2 ++ "." ++ toString a.ip3 ++ "."
      ++ toString a.ip4 ++ ":" ++ toString a.port
  else
    s.type ++ "://" ++ Text.hex a.ip1 ++ ":" ++ Text.hex a.ip2 ++ ":" ++ Text.hex a.ip3 ++ ":"
      ++ Text.hex a.ip4 ++ ":" ++ Text.hex a.ip5 ++ ":" ++ Text.hex a.ip6 ++ ":"
      ++ Text.hex a.ip7 ++ ":" ++ Text.hex a.ip8 ++ ":" ++ toString a.port

end Socket

example : (Socket.ofLine "0: 0100007F:0050 00000000:0000 0A 0 0 0 0 0 123" "tcp").map
    (fun s => (s.getSource, s.id, s.isLoopBack)) = some ("tcp://127.0.0.1:80", 123, true) := by
  decide

example : (Socket.ofSource 7 "tcp6://fe80:0:0:0:0:0:0:1:8080").map Socket.getSource
    = some "tcp6://fe80:0:0:0:0:0:0:1:8080" := by
  decide

end WatchedAgent.Model
