import WatchedAgent.Proofs.ServiceOps
import WatchedAgent.Proofs.SocketText

/-!
# `WatchedAgent.Proofs.Addresses`: the addresses of sockets

The kernel prints an address of `/proc/net` word by word, each 32-bit word with its bytes in
reverse order. `setSockFrom` and `setSockFrom6` read the bytes at fixed positions.

* `setSockFrom_token`, `setSockFrom6_token`: the octets and groups are those of the address.
* `getSource_eq_iff`: two sockets print alike exactly when they have the same type, address
  and port (`SameAddress`).
* `addresses_survive`: a socket read from its text has the address of the socket it is from.
* `addresses_decoded`: no two addresses or ports of the kernel give one source.
-/

set_option autoImplicit false

namespace WatchedAgent.Proofs

open WatchedAgent.Lib
open WatchedAgent.Lib.Text
open WatchedAgent.Model
open WatchedAgent.Model.Socket

namespace Addresses

open SocketText

/-! ### The text of a socket -/

/-- The components of the address that the constructors set. -/
def components (s : Socket) : List Nat :=
  let a := s.source
  if isIPv4 s.type then [a.ip1, a.ip2, a.ip3, a.ip4]
  else [a.ip1, a.ip2, a.ip3, a.ip4, a.ip5, a.ip6, a.ip7, a.ip8]

/-- Two sockets of the same type, on the same address and port. -/
structure SameAddress (s t : Socket) : Prop where
  type : s.type = t.type
  address : components s = components t
  port : s.source.port = t.source.port

instance (s t : Socket) : Decidable (SameAddress s t) :=
  decidable_of_iff (s.type = t.type ∧ components s = components t ∧ s.source.port = t.source.port)
    ⟨fun h => ⟨h.1, h.2.1, h.2.2⟩, fun h => ⟨h.type, h.address, h.port⟩⟩

theorem SameAddress.symm {s t : Socket} (h : SameAddress s t) : SameAddress t s :=
  ⟨h.type.symm, h.address.symm, h.port.symm⟩

theorem SameAddress.trans {s t u : Socket} (h : SameAddress s t) (h' : SameAddress t u) :
    SameAddress s u :=
  ⟨h.type.trans h'.type, h.address.trans h'.address, h.port.trans h'.port⟩

/-- The text is printed from the type, the address and the port. -/
theorem SameAddress.getSource_eq {s t : Socket} (h : SameAddress s t) :
    s.getSource = t.getSource := by
  have haddr := h.address
  rw [getSource, getSource, h.type, h.port]
  cases htype : isIPv4 t.type with
  | true =>
      simp only [components, h.type, htype, if_true, List.cons.injEq, and_true] at haddr ⊢
      obtain ⟨h1, h2, h3, h4⟩ := haddr
      rw [h1, h2, h3, h4]
  | false =>
      simp only [components, h.type, htype, Bool.false_eq_true, if_false, List.cons.injEq,
        and_true] at haddr ⊢
      obtain ⟨h1, h2, h3, h4, h5, h6, h7, h8⟩ := haddr
      rw [h1, h2, h3, h4, h5, h6, h7, h8]

/-- The text is read back as a socket on the same address. -/
theorem exists_sameAddress (id : Nat) {s : Socket} (h : Ranged s) :
    ∃ s', ofSource id s.getSource = some s' ∧ SameAddress s' s := by
  cases htype : isIPv4 s.type with
  | true =>
      refine ⟨_, (ofSource_getSource id h).trans (ofParts_of_isIPv4 id h htype), rfl, ?_, rfl⟩
      rw [components, components]
      dsimp only
      rw [if_pos htype, if_pos htype]
  | false =>
      exact ⟨_, (ofSource_getSource id h).trans (ofParts_of_not_isIPv4 id h htype), rfl, rfl, rfl⟩

/-- Sockets print alike exactly when they are on the same address: both are read back from
the one text. -/
theorem getSource_eq_iff {s t : Socket} (hs : Ranged s) (ht : Ranged t) :
    s.getSource = t.getSource ↔ SameAddress s t := by
  constructor
  · intro h
    obtain ⟨s', hread, hsame⟩ := exists_sameAddress 0 hs
    obtain ⟨t', hread', hsame'⟩ := exists_sameAddress 0 ht
    obtain rfl : s' = t' := Option.some.inj (hread.symm.trans (h ▸ hread'))
    exact hsame.symm.trans hsame'
  · exact SameAddress.getSource_eq

/-- A socket of a file of `/proc/net`. -/
def FromKernel (s : Socket) : Prop :=
  ∃ line, ∃ type ∈ SocketDetector.files, ofLine line type = some s

theorem FromKernel.ranged {s : Socket} (h : FromKernel s) : Ranged s := by
  have hfiles : ∀ type ∈ SocketDetector.files, ':' ∉ type.toList := by decide
  obtain ⟨line, type, htype, hline⟩ := h
  exact ranged_ofLine hline (hfiles type htype)

section Tests
variable {t : Socket} {serv : Service}

/-- The test for a known source, in `operator==` and `setSocket`. -/
theorem haveSocketSource_iff_sameAddress (ht : FromKernel t)
    (hserv : ∀ i ∈ serv.sockets, FromKernel i) :
    serv.haveSocketSource t.getSource = true ↔ ∃ i ∈ serv.sockets, SameAddress i t := by
  rw [Service.haveSocketSource, List.any_eq_true]
  refine exists_congr fun i => and_congr_right fun hi => ?_
  rw [beq_iff_eq, getSource_eq_iff (hserv i hi).ranged ht.ranged]

/-- A service takes a socket on an address it does not have. -/
theorem sockets_setSocket_eq (ht : FromKernel t) (hserv : ∀ i ∈ serv.sockets, FromKernel i) :
    (serv.setSocket t).sockets = if ∃ i ∈ serv.sockets, SameAddress i t then serv.sockets
      else serv.sockets ++ [t] := by
  rw [Service.sockets_setSocket]
  exact if_congr (Service.haveSocketSource_iff.symm.trans
    (haveSocketSource_iff_sameAddress ht hserv)) rfl rfl

/-- `updateFrom` erases the first entry on the address. -/
theorem replaceSocket_eq (ht : FromKernel t) (hserv : ∀ i ∈ serv.sockets, FromKernel i) :
    serv.replaceSocket t = { serv with
      sockets := serv.sockets.eraseP (fun i => decide (SameAddress i t)) }.setSocket t := by
  have herase : ∀ l : List Socket, (∀ i ∈ l, FromKernel i) →
      l.eraseP (fun i => i.getSource == t.getSource)
        = l.eraseP (fun i => decide (SameAddress i t)) := by
    intro l
    induction l with
    | nil => exact fun _ => rfl
    | cons i l ih =>
        intro hl
        have htest : (i.getSource == t.getSource) = decide (SameAddress i t) := by
          rw [Bool.eq_iff_iff, beq_iff_eq, decide_eq_true_iff,
            getSource_eq_iff (hl i List.mem_cons_self).ranged ht.ranged]
        rw [List.eraseP_cons, List.eraseP_cons, htest,
          ih fun j hj => hl j (List.mem_cons_of_mem i hj)]
  rw [Service.replaceSocket, herase serv.sockets hserv]

end Tests

/-- A socket of `/proc/net` is read back from its text with its type, address and port. Two
of them have one text exactly when they have the same type, address and port. So `setSocket`
refuses, `updateFrom` erases and `operator==` finds exactly the entries on the same address. -/
theorem addresses_survive (s t : Socket) (serv : Service) (hs : FromKernel s)
    (ht : FromKernel t) (hserv : ∀ i ∈ serv.sockets, FromKernel i) :
    (∀ id, ∃ s', ofSource id s.getSource = some s' ∧ SameAddress s' s ∧
        s'.getSource = s.getSource)
      ∧ (s.getSource = t.getSource ↔ SameAddress s t)
      ∧ ((serv.setSocket t).sockets = if ∃ i ∈ serv.sockets, SameAddress i t then serv.sockets
          else serv.sockets ++ [t])
      ∧ (serv.replaceSocket t = { serv with
          sockets := serv.sockets.eraseP (fun i => decide (SameAddress i t)) }.setSocket t)
      ∧ (serv.haveSocketSource t.getSource = true ↔ ∃ i ∈ serv.sockets, SameAddress i t) := by
  refine ⟨fun id => ?_, getSource_eq_iff hs.ranged ht.ranged, sockets_setSocket_eq ht hserv,
    replaceSocket_eq ht hserv, haveSocketSource_iff_sameAddress ht hserv⟩
  obtain ⟨s', hread, hsame⟩ := exists_sameAddress id hs.ranged
  exact ⟨s', hread, hsame, hsame.getSource_eq⟩

/-- A socket on port 22 of `127.0.0.1`. -/
def ssh : Socket where
  id := 123
  type := "tcp"
  source := { port := 22, ip1 := 127, ip4 := 1 }

/-- A socket on port 22 of `::1`. -/
def ssh6 : Socket where
  id := 124
  type := "tcp6"
  source := { port := 22, ip8 := 1 }

/-- A service that listens on both refuses, and finds, the IPv4 address once more. -/
theorem addresses_survive_loopback :
    (∃ s', ofSource 0 ssh6.getSource = some s' ∧ SameAddress s' ssh6)
      ∧ ({ sockets := [ssh, ssh6] } : Service).haveSocketSource ssh.getSource = true
      ∧ (({ sockets := [ssh, ssh6] } : Service).setSocket ssh).sockets = [ssh, ssh6] := by
  have hssh : FromKernel ssh :=
    ⟨"0: 0100007F:0016 00000000:0000 0A 0 0 0 0 0 123", "tcp", by decide, by decide⟩
  have hssh6 : FromKernel ssh6 :=
    ⟨"0: 00000000000000000000000001000000:0016 00000000000000000000000000000000:0000 0A 0 0 0 0 " ++
      "0 124", "tcp6", by decide, by decide +kernel⟩
  obtain ⟨hread, -, hset, -, hfound⟩ := addresses_survive ssh6 ssh { sockets := [ssh, ssh6] }
    hssh6 hssh (by simp [hssh, hssh6])
  obtain ⟨s', hs', hsame, -⟩ := hread 0
  have hmem : ∃ i ∈ [ssh, ssh6], SameAddress i ssh := ⟨ssh, List.mem_cons_self, rfl, rfl, rfl⟩
  exact ⟨⟨s', hs', hsame⟩, hfound.mpr hmem, hset.trans (if_pos hmem)⟩

/-! ### The addresses of the kernel -/

/-- Four bytes of an address, in the order of the network. -/
structure Word where
  b1 : UInt8
  b2 : UInt8
  b3 : UInt8
  b4 : UInt8
  deriving DecidableEq

/-- The bytes of a word as a little-endian kernel prints it. -/
def Word.printed (w : Word) : List UInt8 := [w.b4, w.b3, w.b2, w.b1]

/-- The bytes of a port. -/
def portBytes (port : UInt16) : List UInt8 := [(port / 256).toUInt8, (port % 256).toUInt8]

/-- The second and third word of a line of `/proc/net`: the words of an address, a colon and
the port, all in hexadecimal digits. -/
def token (ws : List Word) (port : UInt16) : String :=
  String.ofList (hexPairs (ws.flatMap Word.printed) ++ ':' :: hexPairs (portBytes port))

/-- The octets of an IPv4 address and the port, as `sock_addr` holds them. -/
def addr4 (w : Word) (port : UInt16) : SockAddr where
  port := port.toNat
  ip1 := w.b1.toNat
  ip2 := w.b2.toNat
  ip3 := w.b3.toNat
  ip4 := w.b4.toNat

/-- A group of an IPv6 address. -/
def group (high low : UInt8) : Nat := high.toNat * 256 + low.toNat

/-- The groups of an IPv6 address and the port, as `sock_addr` holds them. -/
def addr6 (w1 w2 w3 w4 : Word) (port : UInt16) : SockAddr where
  port := port.toNat
  ip1 := group w1.b1 w1.b2
  ip2 := group w1.b3 w1.b4
  ip3 := group w2.b1 w2.b2
  ip4 := group w2.b3 w2.b4
  ip5 := group w3.b1 w3.b2
  ip6 := group w3.b3 w3.b4
  ip7 := group w4.b1 w4.b2
  ip8 := group w4.b3 w4.b4

/-- A number of one or two bytes is read from the text of the substrings that spell it. -/
theorem hexAt_of_parts {s : String} {l : List Nat} {t : List String}
    {b : List UInt8} (hparts : l.mapM (fun pos => substrN s pos 2) = some t)
    (htext : (String.join t).toList = hexPairs b) (hlt : bytesValue b < 0x10000) :
    hexAt s l = some (bytesValue b) := by
  rw [hexAt, hparts, Option.bind_eq_bind, Option.bind_some,
    strtoul_hexPairs htext (by omega), toUInt16, Nat.mod_eq_of_lt hlt]
  rfl

/-- The two characters at a position where a byte is printed. -/
theorem substrN_of_drop {src : String} {pos : Nat} {b : UInt8} {rest : List Char}
    (h : src.toList.drop pos = hexPair b ++ rest) :
    substrN src pos 2 = some (String.ofList (hexPair b)) := by
  have hle : pos ≤ src.length := by
    by_contra hlt
    rw [List.drop_eq_nil_of_le (by rw [String.length_toList]; omega)] at h
    simp [hexPair] at h
  rw [substrN, if_pos hle, h]
  rfl

/-- One byte, read at its position. -/
theorem hexAt_one {src : String} {pos : Nat} {b : UInt8} {rest : List Char}
    (h : src.toList.drop pos = hexPair b ++ rest) : hexAt src [pos] = some b.toNat := by
  have hlt := b.toNat_lt_size
  have hvalue : bytesValue [b] = b.toNat := by simp [bytesValue]
  have hread := hexAt_of_parts (s := src) (l := [pos]) (b := [b])
    (t := [String.ofList (hexPair b)]) (by simp [substrN_of_drop h])
    (by simp [String.join, hexPairs]) (by rw [hvalue]; simp only [UInt8.size] at hlt; omega)
  rwa [hvalue] at hread

/-- Two bytes, read at their positions, the high one first. -/
theorem hexAt_two {src : String} {p q : Nat} {high low : UInt8} {rest rest' : List Char}
    (hhigh : src.toList.drop p = hexPair high ++ rest)
    (hlow : src.toList.drop q = hexPair low ++ rest') :
    hexAt src [p, q] = some (group high low) := by
  have hh := high.toNat_lt_size
  have hl := low.toNat_lt_size
  have hvalue : bytesValue [high, low] = group high low := by simp [bytesValue, group]
  have hread := hexAt_of_parts (s := src) (l := [p, q]) (b := [high, low])
    (t := [String.ofList (hexPair high), String.ofList (hexPair low)])
    (by simp [substrN_of_drop hhigh, substrN_of_drop hlow]) (by simp [String.join, hexPairs])
    (by rw [hvalue, group]; simp only [UInt8.size] at hh hl; omega)
  rwa [hvalue] at hread

theorem toList_token (ws : List Word) (port : UInt16) : (token ws port).toList
    = hexPairs (ws.flatMap Word.printed) ++ ':' :: hexPairs (portBytes port) :=
  String.toList_ofList

theorem bytesValue_portBytes (port : UInt16) : bytesValue (portBytes port) = port.toNat := by
  have hlt := port.toNat_lt_size
  simp only [UInt16.size] at hlt
  have hvalue : port.toNat / 256 % 256 * 256 + port.toNat % 256 % 256 = port.toNat := by omega
  simpa [bytesValue, portBytes] using hvalue

/-- The port stands behind the colon, after any number of words. -/
theorem hexPort_token (ws : List Word) (port : UInt16) :
    hexPort (token ws port) = some port.toNat := by
  have htext := toList_token ws port
  have hcolon : ':' ∉ hexPairs (ws.flatMap Word.printed) :=
    fun hmem => (ne_of_digit? (isSome_of_mem_hexPairs hmem)).2.2.2.2.2 rfl
  have hlen : (token ws port).length = (hexPairs (ws.flatMap Word.printed)).length + 1
      + (hexPairs (portBytes port)).length := by
    rw [← String.length_toList, htext, List.length_append, List.length_cons]
    omega
  have hdrop : (token ws port).toList.drop ((hexPairs (ws.flatMap Word.printed)).length + 1)
      = hexPairs (portBytes port) := by
    rw [htext, ← List.drop_drop, List.drop_left]
    rfl
  have hsub : substrN (token ws port) ((hexPairs (ws.flatMap Word.printed)).length + 1)
      (token ws port).length = some (String.ofList (hexPairs (portBytes port))) := by
    rw [substrN, if_pos (by omega), hdrop, List.take_of_length_le (by omega)]
  have hlt := port.toNat_lt_size
  simp only [UInt16.size] at hlt
  have hport := bytesValue_portBytes port
  rw [hexPort, find_of_split htext hcolon, posAdd, hsub, Option.bind_eq_bind, Option.bind_some,
    strtoul_hexPairs String.toList_ofList (by omega), hport, Nat.mod_eq_of_lt (by omega)]
  rfl

/-- The octets of an IPv4 address are decoded. -/
theorem setSockFrom_token (w : Word) (port : UInt16) :
    setSockFrom (token [w] port) = some (addr4 w port) := by
  have htext := toList_token [w] port
  have h4 : hexAt (token [w] port) [0] = some w.b4.toNat := hexAt_one (by rw [htext]; rfl)
  have h3 : hexAt (token [w] port) [2] = some w.b3.toNat := hexAt_one (by rw [htext]; rfl)
  have h2 : hexAt (token [w] port) [4] = some w.b2.toNat := hexAt_one (by rw [htext]; rfl)
  have h1 : hexAt (token [w] port) [6] = some w.b1.toNat := hexAt_one (by rw [htext]; rfl)
  rw [setSockFrom, hexPort_token, h4, h3, h2, h1]
  rfl

/-- The groups of an IPv6 address are decoded: the bytes change places within their word, and
the words keep theirs. -/
theorem setSockFrom6_token (w1 w2 w3 w4 : Word) (port : UInt16) :
    setSockFrom6 (token [w1, w2, w3, w4] port) = some (addr6 w1 w2 w3 w4 port) := by
  have htext := toList_token [w1, w2, w3, w4] port
  have hgroup : ∀ {p q : Nat} {h l : UInt8} {rest rest' : List Char},
      (token [w1, w2, w3, w4] port).toList.drop p = hexPair h ++ rest →
      (token [w1, w2, w3, w4] port).toList.drop q = hexPair l ++ rest' →
      hexAt (token [w1, w2, w3, w4] port) [p, q] = some (group h l) :=
    fun hhigh hlow => hexAt_two hhigh hlow
  rw [htext] at hgroup
  have h2 := hgroup (p := 2) (q := 0) (h := w1.b3) (l := w1.b4) rfl rfl
  have h1 := hgroup (p := 6) (q := 4) (h := w1.b1) (l := w1.b2) rfl rfl
  have h4 := hgroup (p := 10) (q := 8) (h := w2.b3) (l := w2.b4) rfl rfl
  have h3 := hgroup (p := 14) (q := 12) (h := w2.b1) (l := w2.b2) rfl rfl
  have h6 := hgroup (p := 18) (q := 16) (h := w3.b3) (l := w3.b4) rfl rfl
  have h5 := hgroup (p := 22) (q := 20) (h := w3.b1) (l := w3.b2) rfl rfl
  have h8 := hgroup (p := 26) (q := 24) (h := w4.b3) (l := w4.b4) rfl rfl
  have h7 := hgroup (p := 30) (q := 28) (h := w4.b1) (l := w4.b2) rfl rfl
  rw [setSockFrom6, hexPort_token, h2, h1, h4, h3, h6, h5, h8, h7]
  rfl

/-! ### Distinct addresses -/

/-- The bytes of a word are those of its octets. -/
theorem word_ext {w w' : Word} (h1 : w.b1.toNat = w'.b1.toNat) (h2 : w.b2.toNat = w'.b2.toNat)
    (h3 : w.b3.toNat = w'.b3.toNat) (h4 : w.b4.toNat = w'.b4.toNat) : w = w' := by
  obtain ⟨a, b, c, d⟩ := w
  obtain ⟨a', b', c', d'⟩ := w'
  obtain rfl := UInt8.toNat_inj.mp h1
  obtain rfl := UInt8.toNat_inj.mp h2
  obtain rfl := UInt8.toNat_inj.mp h3
  obtain rfl := UInt8.toNat_inj.mp h4
  rfl

/-- A group determines its two bytes. -/
theorem group_inj {a b c d : UInt8} (h : group a b = group c d) :
    a.toNat = c.toNat ∧ b.toNat = d.toNat := by
  have hb := b.toNat_lt_size
  have hd := d.toNat_lt_size
  simp only [UInt8.size] at hb hd
  rw [group, group] at h
  omega

/-- The number of words in the addresses of a type. -/
def wordCount (type : String) : Nat := if isIPv4 type then 1 else 4

/-- The socket of a line whose second word is the token of an address of its type. -/
structure Bound (line type : String) (ws : List Word) (port : UInt16) (s : Socket) : Prop where
  mem_files : type ∈ SocketDetector.files
  length_eq : ws.length = wordCount type
  word : (tokens line)[1]? = some (token ws port)
  eq_ofLine : ofLine line type = some s

section Bound
variable {line type : String} {ws : List Word} {port : UInt16} {s : Socket}

theorem Bound.fromKernel (h : Bound line type ws port s) : FromKernel s :=
  ⟨line, type, h.mem_files, h.eq_ofLine⟩

/-- The socket has the type of its file, and what the decoder makes of the token. -/
theorem Bound.decoded (h : Bound line type ws port s) : s.type = type ∧
    (if isIPv4 type then setSockFrom else setSockFrom6) (token ws port) = some s.source := by
  have hline := h.eq_ofLine
  simp only [ofLine, h.word, Option.bind_eq_bind, Option.bind_some, Option.bind_eq_some_iff,
    Option.pure_def, Option.some.injEq] at hline
  obtain ⟨source, hsource, _, _, _, _, _, _, rfl⟩ := hline
  exact ⟨rfl, hsource⟩

/-- A socket of an IPv4 file has the octets of its address. -/
theorem Bound.source_eq_addr4 (h : Bound line type ws port s) (htype : isIPv4 type = true) :
    ∃ w, ws = [w] ∧ s.source = addr4 w port := by
  have hlen := h.length_eq
  rw [wordCount, if_pos htype] at hlen
  obtain ⟨w, rfl⟩ := List.length_eq_one_iff.mp hlen
  have hdec := h.decoded.2
  rw [if_pos htype, setSockFrom_token] at hdec
  exact ⟨w, rfl, (Option.some.inj hdec).symm⟩

/-- A socket of an IPv6 file has the groups of its address. -/
theorem Bound.source_eq_addr6 (h : Bound line type ws port s) (htype : isIPv4 type = false) :
    ∃ w1 w2 w3 w4, ws = [w1, w2, w3, w4] ∧ s.source = addr6 w1 w2 w3 w4 port := by
  have hne : ¬ isIPv4 type = true := by simp [htype]
  have hlen := h.length_eq
  rw [wordCount, if_neg hne] at hlen
  match ws, hlen with
  | [w1, w2, w3, w4], _ =>
      have hdec := h.decoded.2
      rw [if_neg hne, setSockFrom6_token] at hdec
      exact ⟨w1, w2, w3, w4, rfl, (Option.some.inj hdec).symm⟩

/-- Sockets of one source are bound to one address and port. -/
theorem Bound.inj {line' type' : String} {ws' : List Word} {port' : UInt16} {t : Socket}
    (h : Bound line type ws port s) (h' : Bound line' type' ws' port' t)
    (hsource : s.getSource = t.getSource) : type = type' ∧ ws = ws' ∧ port = port' := by
  have hsame := (getSource_eq_iff h.fromKernel.ranged h'.fromKernel.ranged).mp hsource
  obtain rfl : type = type' := h.decoded.1.symm.trans (hsame.type.trans h'.decoded.1)
  have haddr := hsame.address
  have hport := hsame.port
  rw [components, components, h.decoded.1, h'.decoded.1] at haddr
  refine ⟨rfl, ?_⟩
  cases htype : isIPv4 type with
  | true =>
      obtain ⟨w, rfl, hs⟩ := h.source_eq_addr4 htype
      obtain ⟨w', rfl, ht⟩ := h'.source_eq_addr4 htype
      simp only [htype, if_true, hs, ht, addr4, List.cons.injEq, and_true] at haddr hport
      obtain ⟨h1, h2, h3, h4⟩ := haddr
      exact ⟨by rw [word_ext h1 h2 h3 h4], UInt16.toNat_inj.mp hport⟩
  | false =>
      obtain ⟨w1, w2, w3, w4, rfl, hs⟩ := h.source_eq_addr6 htype
      obtain ⟨v1, v2, v3, v4, rfl, ht⟩ := h'.source_eq_addr6 htype
      simp only [htype, Bool.false_eq_true, if_false, hs, ht, addr6, List.cons.injEq,
        and_true] at haddr hport
      obtain ⟨h1, h2, h3, h4, h5, h6, h7, h8⟩ := haddr
      -- Two groups make up a word.
      have hword : ∀ {w v : Word}, group w.b1 w.b2 = group v.b1 v.b2 →
          group w.b3 w.b4 = group v.b3 v.b4 → w = v :=
        fun hhigh hlow => word_ext (group_inj hhigh).1 (group_inj hhigh).2 (group_inj hlow).1
          (group_inj hlow).2
      rw [hword h1 h2, hword h3 h4, hword h5 h6, hword h7 h8]
      exact ⟨rfl, UInt16.toNat_inj.mp hport⟩

end Bound

/-- The decoders give the octets and the groups of the address, and the port. So the sockets
of two lines with other addresses or ports never have one source. -/
theorem addresses_decoded :
    (∀ (w : Word) (port : UInt16), setSockFrom (token [w] port) = some (addr4 w port))
      ∧ (∀ (w1 w2 w3 w4 : Word) (port : UInt16),
        setSockFrom6 (token [w1, w2, w3, w4] port) = some (addr6 w1 w2 w3 w4 port))
      ∧ (∀ (line line' type type' : String) (ws ws' : List Word) (port port' : UInt16)
        (s t : Socket), Bound line type ws port s → Bound line' type' ws' port' t →
          s.getSource = t.getSource → type = type' ∧ ws = ws' ∧ port = port') :=
  ⟨setSockFrom_token, setSockFrom6_token, fun _ _ _ _ _ _ _ _ _ _ h h' => h.inj h'⟩

/-- The lines of two sockets on port 22 of the loopback network, whose words are each other's
mirror image. -/
theorem addresses_decoded_mirror :
    (ofLine "0: 0100007F:0016 00000000:0000 0A 0 0 0 0 0 123" "tcp").map getSource
      ≠ (ofLine "1: 7F000001:0016 00000000:0000 0A 0 0 0 0 0 125" "tcp").map getSource := by
  have hssh : Bound "0: 0100007F:0016 00000000:0000 0A 0 0 0 0 0 123" "tcp"
      [⟨127, 0, 0, 1⟩] 22 ssh := ⟨by decide, by decide, by decide, by decide⟩
  have hmirror : Bound "1: 7F000001:0016 00000000:0000 0A 0 0 0 0 0 125" "tcp"
      [⟨1, 0, 0, 127⟩] 22 { id := 125, type := "tcp", source := addr4 ⟨1, 0, 0, 127⟩ 22 } :=
    ⟨by decide, by decide, by decide, by decide⟩
  rw [hssh.eq_ofLine, hmirror.eq_ofLine]
  intro heq
  have hsource := addresses_decoded.2.2 _ _ _ _ _ _ _ _ _ _ hssh hmirror (Option.some.inj heq)
  exact absurd hsource.2.1 (by decide)

end Addresses

end WatchedAgent.Proofs
